import PolicyText.Binary.Basic
import PolicyText.Binary.Literal
import PolicyText.Binary.Shortest
import PolicyText.Build.Collected
import PolicyText.Build.Entity
import PolicyText.Build.Reference
import PolicyText.Build.StaticValue
import PolicyText.Calendar.Amount
import PolicyText.Calendar.Date
import PolicyText.Calendar.DateTime
import PolicyText.Calendar.Duration
import PolicyText.Calendar.Fields
import PolicyText.Calendar.Format
import PolicyText.Calendar.Format.Component
import PolicyText.Calendar.Format.Parser
import PolicyText.Calendar.Format.Tree
import PolicyText.Calendar.Notation
import PolicyText.Calendar.Period
import PolicyText.CommandLine.Argument
import PolicyText.CommandLine.Invocation
import PolicyText.CommandLine.Run
import PolicyText.Decimal
import PolicyText.Document.Form
import PolicyText.Document.Reader
import PolicyText.Document.Record
import PolicyText.Document.Text
import PolicyText.Grammar.Command
import PolicyText.Grammar.EntityKind
import PolicyText.Json.Basic
import PolicyText.Json.Parser
import PolicyText.Json.Printer
import PolicyText.Limits
import PolicyText.Literal
import PolicyText.Main
import PolicyText.Model.Action
import PolicyText.Model.Condition
import PolicyText.Model.Metadata
import PolicyText.Model.Policy
import PolicyText.Model.Variable
import PolicyText.Options
import PolicyText.Parse
import PolicyText.ParseError
import PolicyText.Proofs.Binary.Finite
import PolicyText.Proofs.Build.Agreement
import PolicyText.Proofs.Build.Append
import PolicyText.Proofs.Build.Arguments
import PolicyText.Proofs.Build.Balanced
import PolicyText.Proofs.Build.Collect
import PolicyText.Proofs.Build.Compose
import PolicyText.Proofs.Build.Consumed
import PolicyText.Proofs.Build.Entity
import PolicyText.Proofs.Build.JsonString
import PolicyText.Proofs.Build.Limits
import PolicyText.Proofs.Build.Located
import PolicyText.Proofs.Build.OnePass
import PolicyText.Proofs.Build.Parse
import PolicyText.Proofs.Build.Parts
import PolicyText.Proofs.Build.Reachable
import PolicyText.Proofs.Build.Readers
import PolicyText.Proofs.Build.Replaced
import PolicyText.Proofs.Build.Shifted
import PolicyText.Proofs.Build.Unclosed
import PolicyText.Proofs.Calendar.Amounts
import PolicyText.Proofs.Calendar.Duration
import PolicyText.Proofs.Calendar.DurationText
import PolicyText.Proofs.Calendar.Fields
import PolicyText.Proofs.Calendar.Notation
import PolicyText.Proofs.Calendar.Period
import PolicyText.Proofs.Calendar.PeriodText
import PolicyText.Proofs.Calendar.Row
import PolicyText.Proofs.CommandLine.Line
import PolicyText.Proofs.CommandLine.Respond
import PolicyText.Proofs.Decimal
import PolicyText.Proofs.Document.Condition
import PolicyText.Proofs.Document.Lossless
import PolicyText.Proofs.Document.Policy
import PolicyText.Proofs.Document.Reading
import PolicyText.Proofs.Document.Resaved
import PolicyText.Proofs.Document.Trees
import PolicyText.Proofs.Document.Variable
import PolicyText.Proofs.Indexed.Access
import PolicyText.Proofs.Indexed.Arguments
import PolicyText.Proofs.Indexed.Content
import PolicyText.Proofs.Indexed.Progress
import PolicyText.Proofs.Indexed.Scanners
import PolicyText.Proofs.Json.Arrangement
import PolicyText.Proofs.Json.Layout
import PolicyText.Proofs.Json.Ordered
import PolicyText.Proofs.Json.Printed
import PolicyText.Proofs.Json.Readers
import PolicyText.Proofs.Json.Scalars
import PolicyText.Proofs.Json.Spells
import PolicyText.Proofs.Json.Tree
import PolicyText.Proofs.Lookup
import PolicyText.Proofs.Model.Demands
import PolicyText.Proofs.Model.WellFormed
import PolicyText.Proofs.Options.BarList
import PolicyText.Proofs.Options.Decoded
import PolicyText.Proofs.Options.Entries
import PolicyText.Proofs.Options.Labels
import PolicyText.Proofs.Options.Sound
import PolicyText.Proofs.Options.Values
import PolicyText.Proofs.Outcome
import PolicyText.Proofs.Print.Action
import PolicyText.Proofs.Print.BareText
import PolicyText.Proofs.Print.Basic
import PolicyText.Proofs.Print.Condition
import PolicyText.Proofs.Print.JsonLiteral
import PolicyText.Proofs.Print.Literal
import PolicyText.Proofs.Print.Policy
import PolicyText.Proofs.Print.Scalar
import PolicyText.Proofs.Print.Variable
import PolicyText.Proofs.Report.Reading
import PolicyText.Proofs.Row.Basic
import PolicyText.Proofs.Row.Changed
import PolicyText.Proofs.Row.Interleaved
import PolicyText.Proofs.Row.Meaning
import PolicyText.Proofs.Row.Wrapped
import PolicyText.Proofs.Scan.Ahead
import PolicyText.Proofs.Scan.Arguments
import PolicyText.Proofs.Scan.Balanced
import PolicyText.Proofs.Scan.Continued
import PolicyText.Proofs.Scan.Expressible
import PolicyText.Proofs.Scan.Filler
import PolicyText.Proofs.Scan.Groups
import PolicyText.Proofs.Scan.Keyword
import PolicyText.Proofs.Scan.Larger
import PolicyText.Proofs.Scan.Located
import PolicyText.Proofs.Scan.Occurrences
import PolicyText.Proofs.Scan.OptionList
import PolicyText.Proofs.Scan.Recognition
import PolicyText.Proofs.Scan.Reference
import PolicyText.Proofs.Scan.Scanned
import PolicyText.Proofs.Scan.Separated
import PolicyText.Proofs.Scan.Shifted
import PolicyText.Proofs.Scan.Swapped
import PolicyText.Proofs.Scan.Token
import PolicyText.Proofs.Scan.Unclosed
import PolicyText.Proofs.Scan.Verbatim
import PolicyText.Proofs.Text.Digits
import PolicyText.Proofs.Text.Integer
import PolicyText.Proofs.Text.Segments
import PolicyText.Proofs.Text.Trim
import PolicyText.Proofs.Tree.Basic
import PolicyText.Proofs.Tree.Decode
import PolicyText.Proofs.Tree.Render
import PolicyText.Proofs.Version
import PolicyText.Report.Event
import PolicyText.Report.Reading
import PolicyText.Scan.Arguments
import PolicyText.Scan.Content
import PolicyText.Scan.Cursor
import PolicyText.Scan.Keyword
import PolicyText.Scan.Options
import PolicyText.Scan.Reference
import PolicyText.Settings
import PolicyText.Settings.Token
import PolicyText.Text.Blank
import PolicyText.Text.Integer
import PolicyText.Text.Segments
import PolicyText.Text.Utf8
import PolicyText.Version
