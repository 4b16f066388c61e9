import PolicyText.Calendar.Format.Tree
import PolicyText.Text.Integer

/-!
# Components by name and modifiers

What the name of a component and its modifiers mean.  Every name understands some keys (`Name.keys`)
and every key some values (`Settings.set?`); names, keys and values may be written in either case.
Of two modifiers with the same key the later one holds.
-/

namespace PolicyText.Format

/-- Equality up to the case of ASCII letters. -/
def isWord (text : List Char) (word : String) : Bool :=
  text.map Char.toLower == word.toList

/-- The values that the modifiers of a component can give, each absent unless given. -/
structure Settings where
  padding : Padding := .zero
  repr : Option String := none
  caseSensitive : Bool := true
  oneIndexed : Bool := true
  iso : Bool := false
  signMandatory : Bool := false
  uppercase : Bool := true
  digits : Option Nat := none
  precision : UnixPrecision := .second
  count : Option Nat := none
  discard : Bool := false

/-- The modifier keys that components understand. -/
inductive Key where
  | padding
  | repr (values : List String)
  | caseSensitive
  | oneIndexed
  | base
  | range
  | sign
  | letterCase
  | digits
  | precision
  | count
  | trailingInput
  | format

/-- The name of a key. -/
def Key.name : Key → String
  | .padding => "padding"
  | .repr _ => "repr"
  | .caseSensitive => "case_sensitive"
  | .oneIndexed => "one_indexed"
  | .base => "base"
  | .range => "range"
  | .sign => "sign"
  | .letterCase => "case"
  | .digits => "digits"
  | .precision => "precision"
  | .count => "count"
  | .trailingInput => "trailing_input"
  | .format => "format"

/-- The number that an `ignore` component skips, which is not zero and fits 16 bits. -/
def readCount? (text : List Char) : Option Nat :=
  match Text.readInteger ⟨0, 2 ^ 16 - 1⟩ text with
  | .ok n => if n = 0 then none else some n.toNat
  | .error _ => none

/-- The setting with one of its values replaced as a modifier says, if the value is one of the
key. -/
def Settings.set? (settings : Settings) (key : Key) (value : List Char) : Option Settings :=
  match key with
  | .padding =>
    if isWord value "zero" then some { settings with padding := .zero }
    else if isWord value "space" then some { settings with padding := .space }
    else if isWord value "none" then some { settings with padding := .none }
    else none
  | .repr values =>
    (values.find? (isWord value)).map fun style => { settings with repr := some style }
  | .caseSensitive =>
    if isWord value "true" then some { settings with caseSensitive := true }
    else if isWord value "false" then some { settings with caseSensitive := false }
    else none
  | .oneIndexed =>
    if isWord value "true" then some { settings with oneIndexed := true }
    else if isWord value "false" then some { settings with oneIndexed := false }
    else none
  | .base =>
    if isWord value "calendar" then some { settings with iso := false }
    else if isWord value "iso_week" then some { settings with iso := true }
    else none
  | .range =>
    if isWord value "standard" || isWord value "extended" then some settings else none
  | .sign =>
    if isWord value "automatic" then some { settings with signMandatory := false }
    else if isWord value "mandatory" then some { settings with signMandatory := true }
    else none
  | .letterCase =>
    if isWord value "upper" then some { settings with uppercase := true }
    else if isWord value "lower" then some { settings with uppercase := false }
    else none
  | .digits =>
    match value with
    | ['1', '+'] => some { settings with digits := none }
    | [c] =>
      match Text.digitValue? c with
      | some n => if n = 0 then none else some { settings with digits := some n }
      | none => none
    | _ => none
  | .precision =>
    if isWord value "second" then some { settings with precision := .second }
    else if isWord value "millisecond" then some { settings with precision := .millisecond }
    else if isWord value "microsecond" then some { settings with precision := .microsecond }
    else if isWord value "nanosecond" then some { settings with precision := .nanosecond }
    else none
  | .count => (readCount? value).map fun n => { settings with count := some n }
  | .trailingInput =>
    if isWord value "prohibit" then some { settings with discard := false }
    else if isWord value "discard" then some { settings with discard := true }
    else none
  | .format => if isWord value "true" || isWord value "false" then some settings else none

/-- Applies the modifiers of a component, which understands the given keys, in their order. -/
def applyModifiers (keys : List Key) :
    Settings → List Modifier → Except FormatFault Settings
  | settings, [] => .ok settings
  | settings, modifier :: rest =>
    match keys.find? fun key => isWord modifier.key.text key.name with
    | none => .error (.invalidModifier (String.ofList modifier.key.text) modifier.key.index)
    | some key =>
      match settings.set? key modifier.value.text with
      | none =>
        .error (.invalidModifier (String.ofList modifier.value.text) modifier.value.index)
      | some settings => applyModifiers keys settings rest

/-- The names of the components that can be read. -/
inductive Name where
  | day
  | finish
  | hour
  | ignore
  | minute
  | month
  | offsetHour
  | offsetMinute
  | offsetSecond
  | ordinal
  | period
  | second
  | subsecond
  | unixTimestamp
  | weekNumber
  | weekday
  | year

/-- Each name with its text. -/
def Name.table : List (String × Name) :=
  [("day", .day), ("end", .finish), ("hour", .hour), ("ignore", .ignore), ("minute", .minute),
    ("month", .month), ("offset_hour", .offsetHour), ("offset_minute", .offsetMinute),
    ("offset_second", .offsetSecond), ("ordinal", .ordinal), ("period", .period),
    ("second", .second), ("subsecond", .subsecond), ("unix_timestamp", .unixTimestamp),
    ("week_number", .weekNumber), ("weekday", .weekday), ("year", .year)]

/-- The keys that a component understands. -/
def Name.keys : Name → List Key
  | .day => [.padding]
  | .finish => [.trailingInput]
  | .hour => [.padding, .repr ["24", "12"]]
  | .ignore => [.count]
  | .minute => [.padding]
  | .month => [.padding, .repr ["numerical", "long", "short"], .caseSensitive]
  | .offsetHour => [.sign, .padding]
  | .offsetMinute => [.padding]
  | .offsetSecond => [.padding]
  | .ordinal => [.padding]
  | .period => [.letterCase, .caseSensitive]
  | .second => [.padding]
  | .subsecond => [.digits]
  | .unixTimestamp => [.precision, .sign]
  | .weekNumber => [.padding, .repr ["iso", "sunday", "monday"]]
  | .weekday => [.repr ["short", "long", "sunday", "monday"], .oneIndexed, .caseSensitive]
  | .year =>
    [.padding, .repr ["full", "century", "last_two"], .range, .base, .sign]

/-- The component with a given name and settings; `index` is where its name begins. -/
def Name.component (index : Nat) (s : Settings) : Name → Except FormatFault FormatComponent
  | .day => .ok (.day s.padding)
  | .finish => .ok (.finish s.discard)
  | .hour => .ok (.hour (s.repr == some "12") s.padding)
  | .ignore =>
    match s.count with
    | some n => .ok (.ignore n)
    | none => .error (.missingModifier "count" index)
  | .minute => .ok (.minute s.padding)
  | .month =>
    let style :=
      if s.repr == some "long" then MonthStyle.long
      else if s.repr == some "short" then MonthStyle.short
      else MonthStyle.numerical
    .ok (.month style s.padding s.caseSensitive)
  | .offsetHour => .ok (.offsetHour s.signMandatory s.padding)
  | .offsetMinute => .ok (.offsetMinute s.padding)
  | .offsetSecond => .ok (.offsetSecond s.padding)
  | .ordinal => .ok (.ordinal s.padding)
  | .period => .ok (.period s.uppercase s.caseSensitive)
  | .second => .ok (.second s.padding)
  | .subsecond => .ok (.subsecond s.digits)
  | .unixTimestamp => .ok (.unixTimestamp s.precision s.signMandatory)
  | .weekNumber =>
    let style :=
      if s.repr == some "sunday" then WeekStyle.sunday
      else if s.repr == some "monday" then WeekStyle.monday
      else WeekStyle.iso
    .ok (.weekNumber style s.padding)
  | .weekday =>
    let style :=
      if s.repr == some "short" then WeekdayStyle.short
      else if s.repr == some "sunday" then WeekdayStyle.fromSunday
      else if s.repr == some "monday" then WeekdayStyle.fromMonday
      else WeekdayStyle.long
    .ok (.weekday style s.oneIndexed s.caseSensitive)
  | .year =>
    let style :=
      if s.repr == some "century" then YearStyle.century
      else if s.repr == some "last_two" then YearStyle.lastTwo
      else YearStyle.full
    .ok (.year style s.iso s.padding s.signMandatory)

/-- The component with a given name and modifiers. -/
def readComponentName (name : Piece) (modifiers : List Modifier) :
    Except FormatFault FormatComponent :=
  match Name.table.find? fun entry => isWord name.text entry.1 with
  | none => .error (.invalidName (String.ofList name.text) name.index)
  | some (_, which) => do
    let settings ← applyModifiers which.keys {} modifiers
    which.component name.index settings

end PolicyText.Format
