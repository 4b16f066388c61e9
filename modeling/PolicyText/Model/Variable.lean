import PolicyText.Calendar.DateTime
import PolicyText.Calendar.Duration
import PolicyText.Calendar.Period
import PolicyText.Decimal
import PolicyText.Json.Basic
import PolicyText.Model.Metadata

/-!
# Variables

A variable stands for a value.  A static variable holds the value, which has one of fourteen types
(`StaticValue`); a dynamic variable finds it when a policy is evaluated, by trying its resolvers,
each of which applies an expression to one of the sources of data.
-/

namespace PolicyText

/-- The types of values. -/
inductive ValueType where
  | string
  | date
  | dateTime
  | time
  | period
  | duration
  | int
  | long
  | number
  | float
  | bigDecimal
  | boolean
  | object
  | array
  deriving DecidableEq, Repr

instance : Literal ValueType where
  all :=
    [.string, .date, .dateTime, .time, .period, .duration, .int, .long, .number, .float,
      .bigDecimal, .boolean, .object, .array]
  literal
    | .string => "STRING"
    | .date => "DATE"
    | .dateTime => "DATE_TIME"
    | .time => "TIME"
    | .period => "PERIOD"
    | .duration => "DURATION"
    | .int => "INT"
    | .long => "LONG"
    | .number => "NUMBER"
    | .float => "FLOAT"
    | .bigDecimal => "BIG_DECIMAL"
    | .boolean => "BOOLEAN"
    | .object => "OBJECT"
    | .array => "ARRAY"
  find_literal type := by cases type <;> decide

/-- The value of a static variable. -/
inductive StaticValue where
  | string (s : String)
  | date (d : Date)
  | dateTime (dt : DateTime)
  | time (t : TimeOfDay)
  | period (p : Period)
  | duration (d : Duration)
  | int (n : Text.Integer32)
  | long (n : Text.Integer64)
  | number (x : Binary64)
  | float (x : Binary32)
  | bigDecimal (d : Decimal)
  | boolean (b : Bool)
  | object (fields : List (String × Json))
  | array (items : List Json)
  deriving DecidableEq

/-- The type of a static value. -/
def StaticValue.type : StaticValue → ValueType
  | .string _ => .string
  | .date _ => .date
  | .dateTime _ => .dateTime
  | .time _ => .time
  | .period _ => .period
  | .duration _ => .duration
  | .int _ => .int
  | .long _ => .long
  | .number _ => .number
  | .float _ => .float
  | .bigDecimal _ => .bigDecimal
  | .boolean _ => .boolean
  | .object _ => .object
  | .array _ => .array

/-- A variable that holds its value.  Only the value of a date or time has a format, and only
that of a string can be the text of a JSON value. -/
structure StaticVariable where
  metadata : Metadata := {}
  value : StaticValue
  format : Option String := none
  isJson : Option Bool := none
  deriving DecidableEq

/-- The languages of resolver expressions. -/
inductive Engine where
  | jsonPath
  | jq
  | key
  deriving DecidableEq, Repr

instance : Literal Engine where
  all := [.jsonPath, .jq, .key]
  literal
    | .jsonPath => "JSON_PATH"
    | .jq => "JQ"
    | .key => "KEY"
  find_literal engine := by cases engine <;> decide

/-- The sources of data to which an expression can be applied. -/
inductive ValueSource where
  | request
  | subject
  | resource
  | environment
  | action
  deriving DecidableEq, Repr

instance : Literal ValueSource where
  all := [.request, .subject, .resource, .environment, .action]
  literal
    | .request => "REQUEST"
    | .subject => "SUBJECT"
    | .resource => "RESOURCE"
    | .environment => "ENVIRONMENT"
    | .action => "ACTION"
  find_literal source := by cases source <;> decide

/-- A way to find a value. -/
structure Resolver where
  metadata : Metadata := {}
  engine : Engine
  expression : String
  source : Option ValueSource := none
  key : Option String := none
  deriving DecidableEq

/-- A variable whose value is found by the first of its resolvers that finds one. -/
structure DynamicVariable where
  metadata : Metadata := {}
  resolvers : List (Slot Resolver)
  type : Option ValueType := none
  format : Option String := none
  deriving DecidableEq

/-- A variable. -/
inductive Variable where
  | static (v : StaticVariable)
  | dynamic (v : DynamicVariable)
  deriving DecidableEq

/-- The identity data of a variable. -/
def Variable.metadata : Variable → Metadata
  | .static v => v.metadata
  | .dynamic v => v.metadata

end PolicyText
