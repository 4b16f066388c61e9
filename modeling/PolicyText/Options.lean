import PolicyText.Document.Form
import PolicyText.ParseError
import PolicyText.Scan.Options
import PolicyText.Text.Blank
import PolicyText.Text.Segments

/-!
# Options

The options of a command are optional throughout; what a missing option means is decided by whoever
evaluates the entity.  `Options.ofRaw` checks the entries of an option list in the order of their
keys and refuses the first that has a value of the wrong form (`OptionForm`); an unknown key has no
effect. Every field then is what the value of its own key reads as.
-/

namespace PolicyText

/-! ## Values of options -/

/-- Reads a truth value. -/
def truthValue? (value : String) : Option Bool :=
  if value = "true" then some true
  else if value = "false" then some false
  else none

/-- The items of a list with bars between them, without white space around them and without the
empty ones. -/
def barItems (value : String) : List String :=
  (((Text.segments '|' value.toList).map Text.trim).filter fun item => !item.isEmpty).map
    String.ofList

/-- Reads a list of labels.  A list without labels is no list. -/
def labels? (value : String) : Option (List String) :=
  if (barItems value).isEmpty then none else some (barItems value)

/-- The first item that is no execution mode. -/
def unknownMode? (value : String) : Option String :=
  (barItems value).find? fun item => (Literal.ofLiteral? item : Option ExecutionMode).isNone

/-- Reads a list of execution modes.  A list without modes is no list. -/
def executionModes? (value : String) : Option ExecutionModes :=
  if (barItems value).isEmpty then none
  else some (.ofList ((barItems value).filterMap Literal.ofLiteral?))

/-- Reads an integer of 32 bits. -/
def integer32? (value : String) : Option Text.Integer32 :=
  (Text.readBounded .int32 value.toList).toOption

/-- The forms that the value of an option can have. -/
inductive OptionForm where
  | text
  | version
  | labels
  | executionModes
  | integer
  | truthValue
  | valueType
  | valueSource
  | strategy
  deriving DecidableEq, Repr

namespace OptionForm

/-- The known options that are no flags, with their forms. -/
def table : List (String × OptionForm) :=
  [("id", .text), ("ver", .version), ("desc", .text), ("labels", .labels),
    ("executionMode", .executionModes), ("priority", .integer), ("dateFormat", .text),
    ("timeFormat", .text), ("dateTimeFormat", .text), ("type", .valueType), ("format", .text),
    ("key", .text), ("source", .valueSource), ("minimumConditions", .integer),
    ("actionExecutionStrategy", .strategy)]

/-- The form of the value of an option; an unknown option has none. -/
def of? (key : String) : Option OptionForm :=
  if flagOptions.contains key then some .truthValue else table.lookup key

/-- Refuses a word that is none of those of a type. -/
def checkWord (α : Type) [Literal α] (key value : String) : Except ParseError Unit :=
  if (Literal.ofLiteral? value : Option α).isSome then .ok ()
  else .error (.invalidOptionValue key value "unknown literal")

/-- Checks that a value has a form. -/
def check (key value : String) : OptionForm → Except ParseError Unit
  | .text | .labels => .ok ()
  | .version =>
    if (Version.parse? value).isSome then .ok () else .error (.invalidVersion value)
  | .executionModes =>
    match unknownMode? value with
    | none => .ok ()
    | some item => .error (.invalidOptionValue key item "unknown execution mode")
  | .integer =>
    match Text.readBounded .int32 value.toList with
    | .ok _ => .ok ()
    | .error fault => .error (.invalidOptionValue key value fault.message)
  | .truthValue =>
    if (truthValue? value).isSome then .ok ()
    else .error (.invalidOptionValue key value "expected 'true' or 'false'")
  | .valueType => checkWord ValueType key value
  | .valueSource => checkWord ValueSource key value
  | .strategy => checkWord ExecutionStrategy key value

end OptionForm

/-! ## Option lists -/

/-- The options of a command. -/
structure Options where
  id : Option String := none
  version : Option Version := none
  description : Option String := none
  labels : Option (List String) := none
  executionMode : Option ExecutionModes := none
  priority : Option Text.Integer32 := none
  isJson : Option Bool := none
  dateFormat : Option String := none
  timeFormat : Option String := none
  dateTimeFormat : Option String := none
  type : Option ValueType := none
  format : Option String := none
  key : Option String := none
  source : Option ValueSource := none
  negateResult : Option Bool := none
  stringIgnoreCase : Option Bool := none
  fieldsStrictCheck : Option Bool := none
  arrayOrderStrictCheck : Option Bool := none
  strictCheck : Option Bool := none
  minimumConditions : Option Text.Integer32 := none
  optimize : Option Bool := none
  lenientConstraints : Option Bool := none
  actionExecutionStrategy : Option ExecutionStrategy := none
  ignoreErrors : Option Bool := none
  strictTargetEffect : Option Bool := none
  skipCache : Option Bool := none
  runChildActions : Option Bool := none
  runAction : Option Bool := none
  indeterminateOnActionFail : Option Bool := none
  strictUnlessLogic : Option Bool := none
  failOnMissingKey : Option Bool := none
  failOnExistingKey : Option Bool := none
  failOnNullSource : Option Bool := none
  castNullSourceToArray : Option Bool := none
  failOnNullMerge : Option Bool := none
  deriving DecidableEq

namespace Options

/-- The identity data among the options. -/
def metadata (o : Options) : Metadata :=
  { id := o.id, version := o.version, description := o.description, labels := o.labels }

/-- The value of a flag. -/
def flag? (raw : RawOptions) (key : String) : Option Bool :=
  raw.get? key >>= truthValue?

/-- What the values of an option list read as. -/
def ofValues (raw : RawOptions) : Options :=
  { id := raw.get? "id"
    version := raw.get? "ver" >>= Version.parse?
    description := raw.get? "desc"
    labels := raw.get? "labels" >>= labels?
    executionMode := raw.get? "executionMode" >>= executionModes?
    priority := raw.get? "priority" >>= integer32?
    isJson := flag? raw "isJson"
    dateFormat := raw.get? "dateFormat"
    timeFormat := raw.get? "timeFormat"
    dateTimeFormat := raw.get? "dateTimeFormat"
    type := raw.get? "type" >>= Literal.ofLiteral?
    format := raw.get? "format"
    key := raw.get? "key"
    source := raw.get? "source" >>= Literal.ofLiteral?
    negateResult := flag? raw "negateResult"
    stringIgnoreCase := flag? raw "stringIgnoreCase"
    fieldsStrictCheck := flag? raw "fieldsStrictCheck"
    arrayOrderStrictCheck := flag? raw "arrayOrderStrictCheck"
    strictCheck := flag? raw "strictCheck"
    minimumConditions := raw.get? "minimumConditions" >>= integer32?
    optimize := flag? raw "optimize"
    lenientConstraints := flag? raw "lenientConstraints"
    actionExecutionStrategy := raw.get? "actionExecutionStrategy" >>= Literal.ofLiteral?
    ignoreErrors := flag? raw "ignoreErrors"
    strictTargetEffect := flag? raw "strictTargetEffect"
    skipCache := flag? raw "skipCache"
    runChildActions := flag? raw "runChildActions"
    runAction := flag? raw "runAction"
    indeterminateOnActionFail := flag? raw "indeterminateOnActionFail"
    strictUnlessLogic := flag? raw "strictUnlessLogic"
    failOnMissingKey := flag? raw "failOnMissingKey"
    failOnExistingKey := flag? raw "failOnExistingKey"
    failOnNullSource := flag? raw "failOnNullSource"
    castNullSourceToArray := flag? raw "castNullSourceToArray"
    failOnNullMerge := flag? raw "failOnNullMerge" }

/-- Checks the entries of an option list in their order. -/
def checkEntries : RawOptions → Except ParseError Unit
  | [] => .ok ()
  | (key, value) :: rest =>
    match OptionForm.of? key with
    | none => checkEntries rest
    | some form =>
      match form.check key value with
      | .error error => .error error
      | .ok () => checkEntries rest

/-- Reads an option list. -/
def ofRaw (raw : RawOptions) : Except ParseError Options :=
  match checkEntries raw with
  | .error error => .error error
  | .ok () => .ok (ofValues raw)

/-- The document of options; they are called as in the text. -/
def document (o : Options) : Json :=
  .object
    (Json.optionalField "id" .string o.id ++
      Json.optionalField "ver" (fun v : Version => .string v.text) o.version ++
      Json.optionalField "desc" .string o.description ++
      Json.optionalField "labels" (fun labels : List String => .array (labels.map .string))
        o.labels ++
      Json.optionalField "executionMode" ExecutionModes.document o.executionMode ++
      Json.optionalField "priority" Text.Bounded.document o.priority ++
      Json.optionalField "isJson" .bool o.isJson ++
      Json.optionalField "dateFormat" .string o.dateFormat ++
      Json.optionalField "timeFormat" .string o.timeFormat ++
      Json.optionalField "dateTimeFormat" .string o.dateTimeFormat ++
      Json.optionalField "type" wordDocument o.type ++
      Json.optionalField "format" .string o.format ++
      Json.optionalField "key" .string o.key ++
      Json.optionalField "source" wordDocument o.source ++
      Json.optionalField "negateResult" .bool o.negateResult ++
      Json.optionalField "stringIgnoreCase" .bool o.stringIgnoreCase ++
      Json.optionalField "fieldsStrictCheck" .bool o.fieldsStrictCheck ++
      Json.optionalField "arrayOrderStrictCheck" .bool o.arrayOrderStrictCheck ++
      Json.optionalField "strictCheck" .bool o.strictCheck ++
      Json.optionalField "minimumConditions" Text.Bounded.document o.minimumConditions ++
      Json.optionalField "optimize" .bool o.optimize ++
      Json.optionalField "lenientConstraints" .bool o.lenientConstraints ++
      Json.optionalField "actionExecutionStrategy" wordDocument o.actionExecutionStrategy ++
      Json.optionalField "ignoreErrors" .bool o.ignoreErrors ++
      Json.optionalField "strictTargetEffect" .bool o.strictTargetEffect ++
      Json.optionalField "skipCache" .bool o.skipCache ++
      Json.optionalField "runChildActions" .bool o.runChildActions ++
      Json.optionalField "runAction" .bool o.runAction ++
      Json.optionalField "indeterminateOnActionFail" .bool o.indeterminateOnActionFail ++
      Json.optionalField "strictUnlessLogic" .bool o.strictUnlessLogic ++
      Json.optionalField "failOnMissingKey" .bool o.failOnMissingKey ++
      Json.optionalField "failOnExistingKey" .bool o.failOnExistingKey ++
      Json.optionalField "failOnNullSource" .bool o.failOnNullSource ++
      Json.optionalField "castNullSourceToArray" .bool o.castNullSourceToArray ++
      Json.optionalField "failOnNullMerge" .bool o.failOnNullMerge)

end Options

end PolicyText
