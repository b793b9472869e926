import Querent.Calendar.Basic
import Querent.Calendar.Reader
import Querent.Catalog.Basic
import Querent.Catalog.Column
import Querent.Catalog.Json
import Querent.Catalog.Table
import Querent.Command.Arguments
import Querent.Command.Basic
import Querent.Command.Effect
import Querent.Command.EnvFile
import Querent.Command.Help
import Querent.Command.Run
import Querent.Connection.Config
import Querent.Connection.Dialect
import Querent.Connection.Url
import Querent.Database.Execute
import Querent.Database.Pool
import Querent.Database.Row
import Querent.Database.Session
import Querent.Database.Value
import Querent.Decimal.Digits
import Querent.Decimal.Fixed
import Querent.Decimal.Literal
import Querent.Decimal.Shortest
import Querent.Dialogue
import Querent.Error
import Querent.Guard.Basic
import Querent.Guard.Violation
import Querent.Json.Basic
import Querent.Json.Fields
import Querent.Json.Printer
import Querent.Json.Token
import Querent.Json.Tree
import Querent.Limiter
import Querent.Llm.Client
import Querent.Llm.Message
import Querent.Llm.Reply
import Querent.Main
import Querent.Naming
import Querent.Ordered
import Querent.Pipeline.Basic
import Querent.Pipeline.Call
import Querent.Pipeline.Candidate
import Querent.Pipeline.Memory
import Querent.Pipeline.Options
import Querent.Pipeline.Stages
import Querent.Prompt.Basic
import Querent.Prompt.Template
import Querent.Proofs.Catalog.RoundTrip
import Querent.Proofs.Catalog.RowServer
import Querent.Proofs.Catalog.Saved
import Querent.Proofs.Catalog.Scope
import Querent.Proofs.Catalog.Server
import Querent.Proofs.Catalog.Stored
import Querent.Proofs.Catalog.UniqueNames
import Querent.Proofs.Command.Renaming
import Querent.Proofs.Decimal.Literal
import Querent.Proofs.Decimal.Overflow
import Querent.Proofs.Decimal.Rounding
import Querent.Proofs.Decimal.Shortest
import Querent.Proofs.Dialogue
import Querent.Proofs.Guard.Aliases
import Querent.Proofs.Guard.CaseBlind
import Querent.Proofs.Guard.CommaJoin
import Querent.Proofs.Guard.Conditions
import Querent.Proofs.Guard.Declared
import Querent.Proofs.Guard.Executed
import Querent.Proofs.Guard.Groups
import Querent.Proofs.Guard.Insertion
import Querent.Proofs.Guard.JoinSound
import Querent.Proofs.Guard.JoinVerdict
import Querent.Proofs.Guard.ListWalk
import Querent.Proofs.Guard.Opening
import Querent.Proofs.Guard.Queries
import Querent.Proofs.Guard.QuotedNames
import Querent.Proofs.Guard.SchemaReport
import Querent.Proofs.Guard.Schemas
import Querent.Proofs.Guard.SelectInto
import Querent.Proofs.Guard.Selection
import Querent.Proofs.Guard.StraightJoin
import Querent.Proofs.Guard.Uncommented
import Querent.Proofs.Guard.Unspaced
import Querent.Proofs.Guard.Verdict
import Querent.Proofs.Guard.Wider
import Querent.Proofs.Json.Members
import Querent.Proofs.Json.Number
import Querent.Proofs.Json.Printed
import Querent.Proofs.Json.Read
import Querent.Proofs.Json.Scan
import Querent.Proofs.Json.Size
import Querent.Proofs.Limiter.Memory
import Querent.Proofs.Limiter.Peers
import Querent.Proofs.Limiter.Times
import Querent.Proofs.Limiter.Window
import Querent.Proofs.Llm.Fence
import Querent.Proofs.Llm.Schedule
import Querent.Proofs.Naming.Interleaved
import Querent.Proofs.Naming.Isolated
import Querent.Proofs.Naming.Run
import Querent.Proofs.Ordered
import Querent.Proofs.Pipeline.Answer
import Querent.Proofs.Pipeline.Checks
import Querent.Proofs.Pipeline.Descriptions
import Querent.Proofs.Pipeline.Fallback
import Querent.Proofs.Pipeline.Guarded
import Querent.Proofs.Pipeline.Isolation
import Querent.Proofs.Pipeline.Kept
import Querent.Proofs.Pipeline.Lifecycle
import Querent.Proofs.Pipeline.Renumbered
import Querent.Proofs.Pipeline.Shared
import Querent.Proofs.Pipeline.Standing
import Querent.Proofs.Pipeline.Strangers
import Querent.Proofs.Pipeline.Success
import Querent.Proofs.Pipeline.Visits
import Querent.Proofs.Prompt.Filled
import Querent.Proofs.Prompt.Lead
import Querent.Proofs.Prompt.Verbatim
import Querent.Proofs.Query.Equality
import Querent.Proofs.Query.JoinQuery
import Querent.Proofs.Query.JoinReading
import Querent.Proofs.Query.Lists
import Querent.Proofs.Query.Parts
import Querent.Proofs.Query.Syntax
import Querent.Proofs.Query.Tables
import Querent.Proofs.Query.Words
import Querent.Proofs.Request.Agreement
import Querent.Proofs.Request.History
import Querent.Proofs.Request.Server
import Querent.Proofs.Request.Store
import Querent.Proofs.Request.Table
import Querent.Proofs.Row.Budget
import Querent.Proofs.Row.Columns
import Querent.Proofs.Row.Decoded
import Querent.Proofs.Row.Growth
import Querent.Proofs.Row.Hidden
import Querent.Proofs.Row.Masked
import Querent.Proofs.Row.Renamed
import Querent.Proofs.Row.Stored
import Querent.Proofs.Sql.AliasMap
import Querent.Proofs.Sql.Balanced
import Querent.Proofs.Sql.Comments
import Querent.Proofs.Sql.Comparison
import Querent.Proofs.Sql.FromItem
import Querent.Proofs.Sql.Gap
import Querent.Proofs.Sql.Group
import Querent.Proofs.Sql.Insertion
import Querent.Proofs.Sql.Item
import Querent.Proofs.Sql.Lower
import Querent.Proofs.Sql.Name
import Querent.Proofs.Sql.Nested
import Querent.Proofs.Sql.Normalized
import Querent.Proofs.Sql.Operands
import Querent.Proofs.Sql.Parentheses
import Querent.Proofs.Sql.Qualified
import Querent.Proofs.Sql.QuotedItems
import Querent.Proofs.Sql.Quoting
import Querent.Proofs.Sql.Scan
import Querent.Proofs.Sql.Selection
import Querent.Proofs.Sql.Spelling
import Querent.Proofs.Sql.Squeeze
import Querent.Proofs.Sql.Stretch
import Querent.Proofs.Sql.Tidy
import Querent.Proofs.Sql.Unspaced
import Querent.Proofs.Sql.Walk
import Querent.Proofs.Text.Blank
import Querent.Proofs.Text.Lower
import Querent.Proofs.Text.Plain
import Querent.Proofs.Text.Replaced
import Querent.Proofs.Text.Words
import Querent.Request.Answer
import Querent.Request.Basic
import Querent.Request.Store
import Querent.Request.Table
import Querent.Row.Budget
import Querent.Row.Cell
import Querent.Row.Columnar
import Querent.Row.Process
import Querent.Scripted.Machine
import Querent.Scripted.Surroundings
import Querent.Settings
import Querent.Sql.FromList
import Querent.Sql.Identifier
import Querent.Sql.Join
import Querent.Sql.Paren
import Querent.Sql.Statement
import Querent.Text.Blank
import Querent.Text.Parts
import Querent.Text.Property
import Querent.Text.Quoted
import Querent.Text.Word
import Querent.Workspace
