/-!
# Segments

`segments` takes a list, most often a text, apart at a separator.  There is always one segment more
than there are separators, and joining the segments gives the list back (`join_segments`).
-/

namespace PolicyText.Text

variable {α : Type} [DecidableEq α]

/-- Splits a list at every separator. -/
def segments (separator : α) : List α → List (List α)
  | [] => [[]]
  | c :: rest =>
    if c = separator then [] :: segments separator rest
    else
      match segments separator rest with
      | [] => [[c]]
      | first :: others => (c :: first) :: others

/-- Puts segments together with separators between them. -/
def join {β : Type} (separator : β) : List (List β) → List β
  | [] => []
  | [segment] => segment
  | segment :: rest => segment ++ separator :: join separator rest

theorem segments_ne_nil (separator : α) (items : List α) : segments separator items ≠ [] := by
  cases items with
  | nil => simp [segments]
  | cons c rest =>
    unfold segments
    split
    · simp
    · split <;> simp

theorem join_segments (separator : α) (items : List α) :
    join separator (segments separator items) = items := by
  induction items with
  | nil => rfl
  | cons c rest ih =>
    have hRest := segments_ne_nil separator rest
    unfold segments
    split
    · cases hSegments : segments separator rest with
      | nil => exact absurd hSegments hRest
      | cons first others => simp_all [join]
    · cases hSegments : segments separator rest with
      | nil => exact absurd hSegments hRest
      | cons first others => cases others <;> simp_all [join]

end PolicyText.Text
