import PolicyText.Calendar.Notation
import PolicyText.Document.Record
import PolicyText.Model.Policy

/-!
# Reading documents

`ofDocument?` reads the document form of every type.  A document that is not of the wanted type is
refused without a reason.  What `document` writes is read back, but other documents are read as
well: fields can be in any order, unknown fields are passed over, absent values can be null, and the
types without flattened fields can be written as arrays.

Two more spellings of the word that names a kind or a constant are refused everywhere: the number of
the word in the list of words, and an object in which the word stands before an empty object.  No
document that is written has them.
-/

namespace PolicyText

/-! ## Identity and references -/

/-- A version as it stands in a document. -/
def Version.ofDocument? (document : Json) : Option Version :=
  document.string? >>= Version.parse?

/-- Reads identity data. -/
def Metadata.ofRecord? (record : Record) : Option Metadata := do
  let id ← record.optional? 0 "id" Json.string?
  let version ← record.optional? 1 "version" Version.ofDocument?
  let description ← record.optional? 2 "description" Json.string?
  let labels ← record.optional? 3 "labels" (Json.list? Json.string?)
  some { id := id, version := version, description := description, labels := labels }

/-- Reads the document of identity data. -/
def Metadata.ofDocument? (document : Json) : Option Metadata :=
  Record.ofDocument? 4 document >>= Metadata.ofRecord?

/-- Reads the document of a pointer. -/
def EntityRef.ofDocument? (document : Json) : Option EntityRef := do
  let record ← Record.ofDocument? 2 document
  let id ← record.required? 0 "id" Json.string?
  let version ← record.optional? 1 "version" Version.ofDocument?
  some { id := id, version := version }

/-- Reads the document of a pointer that says what it points at. -/
def Reference.ofDocument? : Json → Option Reference
  | .object fields => do
    let word ← fields.lookup "refType" >>= Json.string?
    let kind ← Literal.ofLiteral? word
    let target ← EntityRef.ofDocument? (.object fields)
    some ⟨kind, target⟩
  | .array (.string word :: items) => do
    let kind ← Literal.ofLiteral? word
    let target ← EntityRef.ofDocument? (.array items)
    some ⟨kind, target⟩
  | _ => none

/-- Reads the document of a slot. -/
def Slot.ofDocument? {α : Type} (entity? : Json → Option α) : Json → Option (Slot α)
  | .object [(name, content)] =>
    if name = "value" then (entity? content).map .value
    else if name = "ref" then (EntityRef.ofDocument? content).map .ref
    else none
  | _ => none

/-! ## Static values -/

/-- A date, written out or as its year and the day of the year. -/
def Date.ofDocument? : Json → Option Date
  | .string text => (Date.parse text.toList).toOption
  | .array [.number (.integer year), .number (.integer ordinal)] =>
    (Date.ofOrdinal year ordinal).toOption
  | _ => none

/-- A number that is not negative. -/
def natural? (n : Int) : Option Nat :=
  if n < 0 then none else some n.toNat

/-- A time of day with given components. -/
def TimeOfDay.ofIntegers? (hour minute second nanosecond : Int) : Option TimeOfDay := do
  let hour ← natural? hour
  let minute ← natural? minute
  let second ← natural? second
  let nanosecond ← natural? nanosecond
  (TimeOfDay.ofParts hour minute second nanosecond).toOption

/-- A time of day, written out or as its components. -/
def TimeOfDay.ofDocument? : Json → Option TimeOfDay
  | .string text => (TimeOfDay.parse text.toList).toOption
  | .array [.number (.integer hour), .number (.integer minute), .number (.integer second),
      .number (.integer nanosecond)] =>
    TimeOfDay.ofIntegers? hour minute second nanosecond
  | _ => none

/-- A point in time, written out or as the components of its date, time of day and offset. -/
def DateTime.ofDocument? : Json → Option DateTime
  | .string text => (DateTime.parse text.toList).toOption
  | .array [.number (.integer year), .number (.integer ordinal), .number (.integer hour),
      .number (.integer minute), .number (.integer second), .number (.integer nanosecond),
      .number (.integer hours), .number (.integer minutes), .number (.integer seconds)] => do
    let date ← (Date.ofOrdinal year ordinal).toOption
    let time ← TimeOfDay.ofIntegers? hour minute second nanosecond
    let offset ← (Offset.ofParts hours minutes seconds).toOption
    some ⟨date, time, offset⟩
  | _ => none

/-- Reads the document of a period. -/
def Period.ofDocument? (document : Json) : Option Period := do
  let record ← Record.ofDocument? 3 document
  let years ← record.required? 0 "years" (Json.integer? .int32)
  let months ← record.required? 1 "months" (Json.integer? .int32)
  let days ← record.required? 2 "days" (Json.integer? .int32)
  some ⟨years, months, days⟩

/-- A duration, written out or as its whole seconds and nanoseconds. -/
def Duration.ofDocument? : Json → Option Duration
  | .string text => Duration.parse? text.toList
  | .array [seconds, nanoseconds] => do
    let seconds ← seconds.integer? .int64
    let nanoseconds ← nanoseconds.integer? .int32
    Duration.ofNanoseconds? (seconds.value * nanosecondsPerSecond + nanoseconds.value)
  | _ => none

/-- A decimal, written out or as a number. -/
def Decimal.ofDocument? : Json → Option Decimal
  | .string text =>
    (Decimal.readPlain text.toList).toOption <|> (Decimal.readScientific text.toList).toOption
  | .number (.integer n) => Decimal.ofInt? n
  | .number (.double x) => Decimal.ofBinary? x
  | .number (.single x) => Decimal.ofBinary? x
  | _ => none

/-- A number of 64 bits, nearest to the one that is written. -/
def double? : Json → Option Binary64
  | .number (.integer n) => some (Binary.ofInt .double n)
  | .number (.double x) => some x
  | .number (.single x) => some (x.convert .double)
  | _ => none

/-- A number of 32 bits, nearest to the one that is written. -/
def single? : Json → Option Binary32
  | .number (.integer n) => some (Binary.ofInt .single n)
  | .number (.double x) => some (x.convert .single)
  | .number (.single x) => some x
  | _ => none

/-- Reads the content of a static value of a given type. -/
def StaticValue.ofContent? (content : Json) : ValueType → Option StaticValue
  | .string => content.string?.map .string
  | .date => (Date.ofDocument? content).map .date
  | .dateTime => (DateTime.ofDocument? content).map .dateTime
  | .time => (TimeOfDay.ofDocument? content).map .time
  | .period => (Period.ofDocument? content).map .period
  | .duration => (Duration.ofDocument? content).map .duration
  | .int => (content.integer? .int32).map .int
  | .long => (content.integer? .int64).map .long
  | .number => (double? content).map .number
  | .float => (single? content).map .float
  | .bigDecimal => (Decimal.ofDocument? content).map .bigDecimal
  | .boolean => content.bool?.map .boolean
  | .object =>
    match content with
    | .object fields => some (.object fields)
    | _ => none
  | .array =>
    match content with
    | .array items => some (.array items)
    | _ => none

/-- Reads the document of a static value. -/
def StaticValue.ofDocument? (document : Json) : Option StaticValue := do
  let record ← Record.ofDocument? 2 document
  let type ← record.required? 0 "type" Json.literal?
  let content ← record.value? 1 "value"
  StaticValue.ofContent? content type

/-! ## Variables -/

/-- The fields of an object that has a kind, and the kind. -/
def kindOf? (fields : List (String × Json)) : Option String :=
  fields.lookup "kind" >>= Json.string?

/-- Reads the document of a resolver. -/
def Resolver.ofDocument? : Json → Option Resolver
  | .object fields => do
    let record := Record.named fields
    let metadata ← Metadata.ofRecord? record
    let engine ← record.required? 0 "engine" Json.literal?
    let expression ← record.required? 0 "expression" Json.string?
    let source ← record.optional? 0 "source" Json.literal?
    let key ← record.optional? 0 "key" Json.string?
    some
      { metadata := metadata, engine := engine, expression := expression, source := source,
        key := key }
  | _ => none

/-- Reads the fields of a static variable. -/
def StaticVariable.ofRecord? (record : Record) : Option StaticVariable := do
  let metadata ← Metadata.ofRecord? record
  let value ← record.required? 0 "value" StaticValue.ofDocument?
  let format ← record.optional? 0 "format" Json.string?
  let isJson ← record.optional? 0 "is_json" Json.bool?
  some { metadata := metadata, value := value, format := format, isJson := isJson }

/-- Reads the fields of a dynamic variable. -/
def DynamicVariable.ofRecord? (record : Record) : Option DynamicVariable := do
  let metadata ← Metadata.ofRecord? record
  let resolvers ←
    record.required? 0 "resolvers" (Json.list? (Slot.ofDocument? Resolver.ofDocument?))
  let type ← record.optional? 0 "type" Json.literal?
  let format ← record.optional? 0 "format" Json.string?
  some { metadata := metadata, resolvers := resolvers, type := type, format := format }

/-- Reads the document of a variable. -/
def Variable.ofDocument? : Json → Option Variable
  | .object fields =>
    match kindOf? fields with
    | some "static" => (StaticVariable.ofRecord? (.named fields)).map .static
    | some "dynamic" => (DynamicVariable.ofRecord? (.named fields)).map .dynamic
    | _ => none
  | _ => none

/-! ## Conditions -/

/-- Reads the fields of an atomic condition. -/
def AtomicCondition.ofRecord? (record : Record) : Option AtomicCondition := do
  let metadata ← Metadata.ofRecord? record
  let operation ← record.required? 0 "operation" Json.literal?
  let args ← record.required? 0 "args" (Json.list? (Slot.ofDocument? Variable.ofDocument?))
  let negateResult ← record.optional? 0 "negate_result" Json.bool?
  let stringIgnoreCase ← record.optional? 0 "string_ignore_case" Json.bool?
  let fieldsStrictCheck ← record.optional? 0 "fields_strict_check" Json.bool?
  let arrayOrderStrictCheck ← record.optional? 0 "array_order_strict_check" Json.bool?
  some
    { metadata := metadata, operation := operation, args := args, negateResult := negateResult,
      stringIgnoreCase := stringIgnoreCase, fieldsStrictCheck := fieldsStrictCheck,
      arrayOrderStrictCheck := arrayOrderStrictCheck }

/-- Reads the settings of a combination of conditions. -/
def CompositeSettings.ofRecord? (record : Record) : Option CompositeSettings := do
  let minimumConditions ← record.optional? 0 "minimum_conditions" (Json.integer? .int32)
  let optimize ← record.optional? 0 "optimize" Json.bool?
  let negateResult ← record.optional? 0 "negate_result" Json.bool?
  let strictCheck ← record.optional? 0 "strict_check" Json.bool?
  some
    { minimumConditions := minimumConditions, optimize := optimize,
      negateResult := negateResult, strictCheck := strictCheck }

/-- Reads a combination of conditions, given the conditions. -/
def compositeOfRecord? (record : Record) (conditions : List (Slot Condition)) :
    Option Condition := do
  let metadata ← Metadata.ofRecord? record
  let logic ← record.required? 0 "logic" Json.literal?
  let settings ← CompositeSettings.ofRecord? record
  some (.composite metadata logic conditions settings)

mutual

/-- Reads the document of a condition. -/
def Condition.ofDocument? (document : Json) : Option Condition :=
  match document with
  | .object fields =>
    match kindOf? fields with
    | some "atomic" => (AtomicCondition.ofRecord? (.named fields)).map .atomic
    | some "composite" =>
      match _ : fields.lookup "conditions" with
      | some (.array items) => conditionSlots? items >>= compositeOfRecord? (.named fields)
      | _ => none
    | some "default" => ((Record.named fields).required? 1 "value" Json.literal?).map .constant
    | _ => none
  | .array [.string "default", value] => value.literal?.map .constant
  | _ => none
termination_by sizeOf document
decreasing_by
  have := sizeOf_lookup_lt ‹_›
  simp at this ⊢
  omega

/-- Reads a list of slots for conditions. -/
def conditionSlots? (documents : List Json) : Option (List (Slot Condition)) :=
  match documents with
  | [] => some []
  | .object [(name, content)] :: rest => do
    let slot ←
      if name = "value" then (Condition.ofDocument? content).map .value
      else if name = "ref" then (EntityRef.ofDocument? content).map .ref
      else none
    let slots ← conditionSlots? rest
    some (slot :: slots)
  | _ => none
termination_by sizeOf documents

end

/-- Reads a constraint. -/
def constraintOf? (place : Nat) (record : Record) : Option (Option (Slot Condition)) :=
  record.optional? place "constraint" (Slot.ofDocument? Condition.ofDocument?)

/-! ## Actions -/

/-- Reads a variable in a field of an action. -/
def operand? (name : String) (record : Record) : Option (Slot Variable) :=
  record.required? 0 name (Slot.ofDocument? Variable.ofDocument?)

/-- Reads the fields of an effect of a given type. -/
def Effect.ofRecord? (record : Record) : ActionType → Option Effect
  | .save => do
    let value ← operand? "value" record
    let failOnExistingKey ← record.optional? 0 "fail_on_existing_key" Json.bool?
    some (.save value failOnExistingKey)
  | .clear => do
    let failOnMissingKey ← record.optional? 0 "fail_on_missing_key" Json.bool?
    some (.clear failOnMissingKey)
  | .patch => do
    let source ← operand? "source" record
    let change ← operand? "patch" record
    let castNullSourceToArray ← record.optional? 0 "cast_null_source_to_array" Json.bool?
    let failOnMissingKey ← record.optional? 0 "fail_on_missing_key" Json.bool?
    let failOnNullSource ← record.optional? 0 "fail_on_null_source" Json.bool?
    some (.patch source change castNullSourceToArray failOnMissingKey failOnNullSource)
  | .merge => do
    let source ← operand? "source" record
    let other ← operand? "merge" record
    let failOnMissingKey ← record.optional? 0 "fail_on_missing_key" Json.bool?
    let failOnExistingKey ← record.optional? 0 "fail_on_existing_key" Json.bool?
    let failOnNullSource ← record.optional? 0 "fail_on_null_source" Json.bool?
    let failOnNullMerge ← record.optional? 0 "fail_on_null_merge" Json.bool?
    some (.merge source other failOnMissingKey failOnExistingKey failOnNullSource failOnNullMerge)

/-- Reads the document of an action. -/
def Action.ofDocument? : Json → Option Action
  | .object fields => do
    let record := Record.named fields
    let metadata ← Metadata.ofRecord? record
    let key ← record.required? 0 "key" Json.string?
    let type ← record.required? 0 "type" Json.string? >>= Literal.ofLiteral?
    let effect ← Effect.ofRecord? record type
    some { metadata := metadata, key := key, effect := effect }
  | _ => none

/-! ## Policies -/

/-- Reads the document of a set of execution modes. -/
def ExecutionModes.ofDocument? (document : Json) : Option ExecutionModes :=
  (Json.list? Json.literal? document).map ExecutionModes.ofList

/-- Reads the document of the part that an action has in a policy. -/
def ActionLink.ofDocument? (document : Json) : Option ActionLink := do
  let record ← Record.ofDocument? 4 document
  let action ← record.required? 0 "action" (Slot.ofDocument? Action.ofDocument?)
  let constraint ← constraintOf? 1 record
  let executionMode ← record.optional? 2 "execution_mode" ExecutionModes.ofDocument?
  let priority ← record.optional? 3 "priority" (Json.integer? .int32)
  some
    { action := action, constraint := constraint, executionMode := executionMode,
      priority := priority }

/-- Reads the actions of a policy.  They can be absent, but not null. -/
def actionsOf? (record : Record) : Option (List ActionLink) :=
  match record.value? 0 "actions" with
  | none => some []
  | some document => document.list? ActionLink.ofDocument?

/-- Reads the fields of a basic policy. -/
def BasicPolicy.ofRecord? (record : Record) : Option BasicPolicy := do
  let metadata ← Metadata.ofRecord? record
  let targetEffect ← record.required? 0 "target_effect" Json.literal?
  let condition ← record.required? 0 "condition" (Slot.ofDocument? Condition.ofDocument?)
  let constraint ← constraintOf? 0 record
  let actions ← actionsOf? record
  let strictTargetEffect ← record.optional? 0 "strict_target_effect" Json.bool?
  let lenientConstraints ← record.optional? 0 "lenient_constraints" Json.bool?
  let strategy ← record.optional? 0 "action_execution_strategy" Json.literal?
  let ignoreErrors ← record.optional? 0 "ignore_errors" Json.bool?
  let skipCache ← record.optional? 0 "skip_cache" Json.bool?
  some
    { metadata := metadata, targetEffect := targetEffect, condition := condition,
      constraint := constraint, actions := actions, strictTargetEffect := strictTargetEffect,
      lenientConstraints := lenientConstraints, actionExecutionStrategy := strategy,
      ignoreErrors := ignoreErrors, skipCache := skipCache }

/-- Reads what is said about a set besides its members. -/
def SetSettings.ofRecord? (record : Record) : Option SetSettings := do
  let constraint ← constraintOf? 0 record
  let actions ← actionsOf? record
  let lenientConstraints ← record.optional? 0 "lenient_constraints" Json.bool?
  let strategy ← record.optional? 0 "action_execution_strategy" Json.literal?
  let ignoreErrors ← record.optional? 0 "ignore_errors" Json.bool?
  let skipCache ← record.optional? 0 "skip_cache" Json.bool?
  let runChildActions ← record.optional? 0 "run_child_actions" Json.bool?
  let indeterminateOnActionFail ←
    record.optional? 0 "indeterminate_on_action_fail" Json.bool?
  let strictUnlessLogic ← record.optional? 0 "strict_unless_logic" Json.bool?
  some
    { constraint := constraint, actions := actions, lenientConstraints := lenientConstraints,
      actionExecutionStrategy := strategy, ignoreErrors := ignoreErrors, skipCache := skipCache,
      runChildActions := runChildActions, indeterminateOnActionFail := indeterminateOnActionFail,
      strictUnlessLogic := strictUnlessLogic }

/-- Reads a set of policies, given its members. -/
def setOfRecord? (record : Record) (members : List (Member Policy)) : Option Policy := do
  let metadata ← Metadata.ofRecord? record
  let logic ← record.required? 0 "logic" Json.literal?
  let settings ← SetSettings.ofRecord? record
  some (.set metadata logic members settings)

/-- Reads the part that a policy has in a set, given the policy. -/
def memberOfRecord? {α : Type} (record : Record) (policy : Slot α) : Option (Member α) := do
  let constraint ← constraintOf? 1 record
  let runAction ← record.optional? 2 "run_action" Json.bool?
  let priority ← record.optional? 3 "priority" (Json.integer? .int32)
  some
    { policy := policy, constraint := constraint, runAction := runAction, priority := priority }

mutual

/-- Reads the document of a policy. -/
def Policy.ofDocument? (document : Json) : Option Policy :=
  match document with
  | .object fields =>
    match kindOf? fields with
    | some "policy" => (BasicPolicy.ofRecord? (.named fields)).map .basic
    | some "set" =>
      match _ : fields.lookup "policies" with
      | some (.array items) => members? items >>= setOfRecord? (.named fields)
      | _ => none
    | some "default" => ((Record.named fields).required? 1 "value" Json.literal?).map .default
    | _ => none
  | .array [.string "default", value] => value.literal?.map .default
  | _ => none
termination_by sizeOf document
decreasing_by
  have := sizeOf_lookup_lt ‹_›
  simp at this ⊢
  omega

/-- Reads the document of a member of a set. -/
def Member.ofDocument? (document : Json) : Option (Member Policy) :=
  match _ : Record.ofDocument? 4 document with
  | none => none
  | some record =>
    match _ : record.value? 0 "policy" with
    | some (.object [(name, content)]) => do
      let policy ←
        if name = "value" then (Policy.ofDocument? content).map .value
        else if name = "ref" then (EntityRef.ofDocument? content).map .ref
        else none
      memberOfRecord? record policy
    | _ => none
termination_by sizeOf document
decreasing_by
  have := Record.sizeOf_value?_lt ‹_› ‹_›
  simp at this
  omega

/-- Reads the members of a set. -/
def members? (documents : List Json) : Option (List (Member Policy)) :=
  match documents with
  | [] => some []
  | document :: rest => do
    let member ← Member.ofDocument? document
    let members ← members? rest
    some (member :: members)
termination_by sizeOf documents

end

end PolicyText
