import PolicyText.Model.Variable

/-!
# Actions

An action changes the value under a key after a decision: it saves a value there, clears it, or
combines a source with a patch or with another value.
-/

namespace PolicyText

/-- The kinds of actions with their operands and settings. -/
inductive Effect where
  | save (value : Slot Variable) (failOnExistingKey : Option Bool)
  | clear (failOnMissingKey : Option Bool)
  | patch (source change : Slot Variable)
      (castNullSourceToArray failOnMissingKey failOnNullSource : Option Bool)
  | merge (source other : Slot Variable)
      (failOnMissingKey failOnExistingKey failOnNullSource failOnNullMerge : Option Bool)
  deriving DecidableEq

/-- The names of the kinds of actions. -/
inductive ActionType where
  | save
  | clear
  | patch
  | merge
  deriving DecidableEq, Repr

instance : Literal ActionType where
  all := [.save, .clear, .patch, .merge]
  literal
    | .save => "SAVE"
    | .clear => "CLEAR"
    | .patch => "JSON_PATCH"
    | .merge => "JSON_MERGE"
  find_literal type := by cases type <;> decide

/-- The kind of an effect. -/
def Effect.type : Effect → ActionType
  | .save .. => .save
  | .clear _ => .clear
  | .patch .. => .patch
  | .merge .. => .merge

/-- A change of the value under a key. -/
structure Action where
  metadata : Metadata := {}
  key : String
  effect : Effect
  deriving DecidableEq

end PolicyText
