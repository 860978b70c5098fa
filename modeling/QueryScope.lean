import QueryScope.Command.Arguments
import QueryScope.Command.Help
import QueryScope.Command.Report
import QueryScope.Command.Run
import QueryScope.Dialect
import QueryScope.Duration
import QueryScope.File.Memory
import QueryScope.File.Path
import QueryScope.File.Source
import QueryScope.Glob.Pattern
import QueryScope.Glob.Search
import QueryScope.Injection
import QueryScope.Label.Argument
import QueryScope.Label.Name
import QueryScope.Log.Expr
import QueryScope.Log.Filter
import QueryScope.Log.Pipeline
import QueryScope.Log.Printer
import QueryScope.Log.Reader
import QueryScope.Main
import QueryScope.Matcher.Basic
import QueryScope.Matcher.Reader
import QueryScope.Metric.Expr
import QueryScope.Metric.Printer
import QueryScope.Metric.Reader
import QueryScope.NameMap
import QueryScope.Number.Binary64
import QueryScope.Number.Decimal
import QueryScope.Number.Shortest
import QueryScope.Operator.Basic
import QueryScope.Operator.Reader
import QueryScope.Pattern.Basic
import QueryScope.Pattern.Property
import QueryScope.Pattern.Reader
import QueryScope.Reason
import QueryScope.Rule.Basic
import QueryScope.Rule.Check
import QueryScope.Rule.File
import QueryScope.Rule.Paths
import QueryScope.Scan.Basic
import QueryScope.Scan.Lexeme
import QueryScope.Scan.Literal
import QueryScope.Scan.Numeral
import QueryScope.Scan.Report
import QueryScope.Server.Check
import QueryScope.Server.Config
import QueryScope.Server.Decode
import QueryScope.Settings
import QueryScope.Template.Check
import QueryScope.Template.Item
import QueryScope.Template.Lexer
import QueryScope.Template.Literal
import QueryScope.Text.Blank
import QueryScope.Text.Digits
import QueryScope.Text.Escaped
import QueryScope.Text.Lead
import QueryScope.Text.Letter
import QueryScope.Text.Position
import QueryScope.Text.Printable
import QueryScope.Text.Quoted
import QueryScope.Text.Ranges
import QueryScope.Toml.Reader
import QueryScope.Toml.Value
import QueryScope.Trace.Event
import QueryScope.Trace.Filter
import QueryScope.Trace.Line
import QueryScope.Transform
import QueryScope.Variable.Basic
import QueryScope.Variable.Codec
import QueryScope.Variable.Context
import QueryScope.Yaml.Chars
import QueryScope.Yaml.Cursor
import QueryScope.Yaml.Decoder
import QueryScope.Yaml.Layout
import QueryScope.Yaml.Node
import QueryScope.Yaml.Reader
import QueryScope.Yaml.Scalar
import QueryScope.Yaml.Tag
import QueryScope.Yaml.Token
import QueryScope.Yaml.Value
import QueryScope.Proofs.ByteOrder
import QueryScope.Proofs.CharClasses
import QueryScope.Proofs.InjectionNodes
import QueryScope.Proofs.ScanSteps
import QueryScope.Proofs.QuotedText
import QueryScope.Proofs.LiteralGrammar
import QueryScope.Proofs.DurationText
import QueryScope.Proofs.ReadDurations
import QueryScope.Proofs.Rounding
import QueryScope.Proofs.NumberText
import QueryScope.Proofs.ListText
import QueryScope.Proofs.ReadValues
import QueryScope.Proofs.OperatorText
import QueryScope.Proofs.OperatorChain
import QueryScope.Proofs.MetricShape
import QueryScope.Proofs.MetricText
import QueryScope.Proofs.MetricReads
import QueryScope.Proofs.MetricOperands
import QueryScope.Proofs.LogShape
import QueryScope.Proofs.MetricRoundTrip
import QueryScope.Proofs.Replacement
import QueryScope.Proofs.VariableParts
import QueryScope.Proofs.StandIns
import QueryScope.Proofs.CodecRoundTrip
import QueryScope.Proofs.PrintedSelectors
import QueryScope.Proofs.InjectedText
import QueryScope.Proofs.PlainQueries
import QueryScope.Proofs.FilterText
import QueryScope.Proofs.PipelineText
import QueryScope.Proofs.RangeText
import QueryScope.Proofs.LogRoundTrip
import QueryScope.Proofs.Thousandths
import QueryScope.Proofs.Reprinting
import QueryScope.Proofs.Idempotence
import QueryScope.Proofs.WellFormed
import QueryScope.Proofs.ScopedSelectors
import QueryScope.Proofs.RuleReport
import QueryScope.Proofs.LabelPrecedence
import QueryScope.Proofs.InjectionUnion
import QueryScope.Proofs.OperatorPrecedence
import QueryScope.Proofs.TemplateItems
import QueryScope.Proofs.TemplateSteps
import QueryScope.Proofs.TemplateNesting
import QueryScope.Proofs.TemplateRuns
import QueryScope.Proofs.AcceptedTemplates
import QueryScope.Proofs.AlertTemplates
import QueryScope.Proofs.TemplateScopes
import QueryScope.Proofs.ScopedTemplates
import QueryScope.Proofs.QueryTiling
import QueryScope.Proofs.VariableSpans
import QueryScope.Proofs.QuotedStandIns
import QueryScope.Proofs.KeptQuotes
import QueryScope.Proofs.RenamedQueries
import QueryScope.Proofs.StandInTable
import QueryScope.Proofs.VariableRenaming
import QueryScope.Proofs.RestoredDurations
import QueryScope.Proofs.VariableCuts
import QueryScope.Proofs.KeptVariables
import QueryScope.Proofs.TemplateSlices
import QueryScope.Proofs.NumberLiterals
import QueryScope.Proofs.ScannedNumbers
import QueryScope.Proofs.ServerFaults
import QueryScope.Proofs.GuardedLiterals
import QueryScope.Proofs.GuardedLexing
import QueryScope.Proofs.GuardedChecks
import QueryScope.Proofs.GuardedSteps
import QueryScope.Proofs.GuardedRuns
