import LinkedViews.Calendar.Date
import LinkedViews.Calendar.Timestamp
import LinkedViews.Chart.Basic
import LinkedViews.Chart.Entry
import LinkedViews.Chart.Kind
import LinkedViews.Chart.Reducer
import LinkedViews.Command.Arguments
import LinkedViews.Command.Basic
import LinkedViews.Command.Run
import LinkedViews.Configuration
import LinkedViews.Dashboard.Basic
import LinkedViews.Dashboard.DisplayId
import LinkedViews.Dashboard.Project
import LinkedViews.Dashboard.Report
import LinkedViews.Dashboard.Saving
import LinkedViews.Delimited.Reader
import LinkedViews.Delimited.Writer
import LinkedViews.Failure
import LinkedViews.Files.Access
import LinkedViews.Files.Folder
import LinkedViews.Json.Basic
import LinkedViews.Json.Container
import LinkedViews.Json.Cursor
import LinkedViews.Json.Lexeme
import LinkedViews.Json.Record
import LinkedViews.Json.Script
import LinkedViews.Json.Value
import LinkedViews.Main
import LinkedViews.Number.Binary64
import LinkedViews.Number.Decimal
import LinkedViews.Number.Numeral
import LinkedViews.Page.Document
import LinkedViews.Page.Loader
import LinkedViews.Page.Resources
import LinkedViews.Page.Template
import LinkedViews.Preview.Buckets
import LinkedViews.Preview.Chart
import LinkedViews.Preview.Domain
import LinkedViews.Preview.Key
import LinkedViews.Proofs.Browser.Accessor
import LinkedViews.Proofs.Browser.Number
import LinkedViews.Proofs.Browser.Order
import LinkedViews.Proofs.Browser.Reading
import LinkedViews.Proofs.Browser.ScriptData
import LinkedViews.Proofs.Browser.ScriptElement
import LinkedViews.Proofs.Browser.Selector
import LinkedViews.Proofs.Calendar.Date
import LinkedViews.Proofs.Calendar.DayCount
import LinkedViews.Proofs.Calendar.Layouts
import LinkedViews.Proofs.Calendar.Spelling
import LinkedViews.Proofs.Calendar.Timestamp
import LinkedViews.Proofs.Chart.ElementKey
import LinkedViews.Proofs.Chart.Validation
import LinkedViews.Proofs.Dashboard.ContainerIds
import LinkedViews.Proofs.Dashboard.Report
import LinkedViews.Proofs.Delimited.RoundTrip
import LinkedViews.Proofs.Delimited.Scan
import LinkedViews.Proofs.Json.Grammar
import LinkedViews.Proofs.Json.Literal
import LinkedViews.Proofs.Json.OneLine
import LinkedViews.Proofs.Json.Pretty
import LinkedViews.Proofs.Json.Strings
import LinkedViews.Proofs.Number.Digits
import LinkedViews.Proofs.Number.Json
import LinkedViews.Proofs.Number.Numeral
import LinkedViews.Proofs.Number.Plain
import LinkedViews.Proofs.Number.Rounding
import LinkedViews.Proofs.Number.Shortest
import LinkedViews.Proofs.Number.Successor
import LinkedViews.Proofs.Number.Sum
import LinkedViews.Proofs.Number.Whole
import LinkedViews.Proofs.Number.Written
import LinkedViews.Proofs.Page.Document
import LinkedViews.Proofs.Page.Loader
import LinkedViews.Proofs.Page.Template
import LinkedViews.Proofs.Preview.Bracket
import LinkedViews.Proofs.Preview.Buckets
import LinkedViews.Proofs.Preview.Display
import LinkedViews.Proofs.Preview.Domain
import LinkedViews.Proofs.Preview.Field
import LinkedViews.Proofs.Preview.Key
import LinkedViews.Proofs.Preview.Partition
import LinkedViews.Proofs.Preview.RowOrder
import LinkedViews.Proofs.Preview.RunningMean
import LinkedViews.Proofs.Preview.Totals
import LinkedViews.Proofs.Preview.Triple
import LinkedViews.Proofs.Script.Capture
import LinkedViews.Proofs.Script.Closing
import LinkedViews.Proofs.Script.Comment
import LinkedViews.Proofs.Script.Container
import LinkedViews.Proofs.Script.Data
import LinkedViews.Proofs.Script.Events
import LinkedViews.Proofs.Script.Label
import LinkedViews.Proofs.Script.Lexeme
import LinkedViews.Proofs.Script.Mold
import LinkedViews.Proofs.Script.Outline
import LinkedViews.Proofs.Script.Scope
import LinkedViews.Proofs.Script.Sections
import LinkedViews.Proofs.Script.Spelling
import LinkedViews.Proofs.Script.Templates
import LinkedViews.Proofs.Script.Token
import LinkedViews.Proofs.Table.Column
import LinkedViews.Proofs.Table.Idempotence
import LinkedViews.Proofs.Table.Labelled
import LinkedViews.Proofs.Table.Labels
import LinkedViews.Proofs.Table.Reals
import LinkedViews.Proofs.Table.Records
import LinkedViews.Proofs.Table.RecordsText
import LinkedViews.Proofs.Table.RoundTrip
import LinkedViews.Proofs.Table.Typing
import LinkedViews.Proofs.Text.ClosingTag
import LinkedViews.Proofs.Text.Html
import LinkedViews.Proofs.Text.Lexicographic
import LinkedViews.Proofs.Text.Quoted
import LinkedViews.Proofs.Text.Utf8
import LinkedViews.Script.Fragment
import LinkedViews.Script.Grouping
import LinkedViews.Script.IndexName
import LinkedViews.Script.Piece
import LinkedViews.Script.Program
import LinkedViews.Script.Projection
import LinkedViews.Script.Summary
import LinkedViews.Table.Basic
import LinkedViews.Table.Cell
import LinkedViews.Table.Export
import LinkedViews.Table.Import
import LinkedViews.Table.Records
import LinkedViews.Text.Blank
import LinkedViews.Text.Html
import LinkedViews.Text.Lines
import LinkedViews.Text.Printable
import LinkedViews.Text.Quoted
import LinkedViews.Text.Utf8
