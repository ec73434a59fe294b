import FormRules.Callback.Basic
import FormRules.Callback.Predefined
import FormRules.Callback.Registry
import FormRules.CommandLine.Arguments
import FormRules.CommandLine.Command
import FormRules.CommandLine.Run
import FormRules.Condition.Basic
import FormRules.Condition.Compare
import FormRules.Condition.Evaluate
import FormRules.Condition.Names
import FormRules.Context.Basic
import FormRules.Context.Family
import FormRules.Dependency.Document
import FormRules.Dependency.Extract
import FormRules.Dependency.Graph
import FormRules.Dependency.Name
import FormRules.Digraph.Basic
import FormRules.Digraph.Cycles
import FormRules.Digraph.Levels
import FormRules.Digraph.Reach
import FormRules.Fault
import FormRules.Files
import FormRules.Form.Check
import FormRules.Form.Default
import FormRules.Form.Item
import FormRules.Form.Rule
import FormRules.Json.Malformed
import FormRules.Json.Reader
import FormRules.Json.Sendable
import FormRules.Json.Writer
import FormRules.Main
import FormRules.Moment.Basic
import FormRules.Moment.Calendar
import FormRules.Moment.Clock
import FormRules.Moment.Reader
import FormRules.Number.Basic
import FormRules.Number.Binary64
import FormRules.Number.Decimal
import FormRules.Number.Reader
import FormRules.Number.Rounding
import FormRules.Pass.Field
import FormRules.Pass.Form
import FormRules.Pass.Group
import FormRules.Pass.Progress
import FormRules.Pass.Rules
import FormRules.Path
import FormRules.Pattern.Basic
import FormRules.Pattern.Class
import FormRules.Pattern.Malformed
import FormRules.Pattern.Reader
import FormRules.Pattern.Search
import FormRules.Proofs.AcceptedForms
import FormRules.Proofs.AcceptedRules
import FormRules.Proofs.AffectedFields
import FormRules.Proofs.Agreement
import FormRules.Proofs.Arrows
import FormRules.Proofs.BlankTexts
import FormRules.Proofs.BrokenConditions
import FormRules.Proofs.CalendarOrder
import FormRules.Proofs.CallHistory
import FormRules.Proofs.CanonicalText
import FormRules.Proofs.ChoiceOrder
import FormRules.Proofs.ChoicePoints
import FormRules.Proofs.CollectedRules
import FormRules.Proofs.ComparisonSides
import FormRules.Proofs.ConditionReads
import FormRules.Proofs.ConditionRewriting
import FormRules.Proofs.CycleSearch
import FormRules.Proofs.DecimalLayout
import FormRules.Proofs.DependencyLinks
import FormRules.Proofs.DigitTexts
import FormRules.Proofs.DistinctNames
import FormRules.Proofs.EarlyStops
import FormRules.Proofs.EmailAddresses
import FormRules.Proofs.EscapedText
import FormRules.Proofs.ExitCodes
import FormRules.Proofs.FaultyScores
import FormRules.Proofs.FieldFindings
import FormRules.Proofs.FieldOrder
import FormRules.Proofs.FieldReads
import FormRules.Proofs.FieldReports
import FormRules.Proofs.FormCompletion
import FormRules.Proofs.GatedGroups
import FormRules.Proofs.GroupReading
import FormRules.Proofs.GroupVerdict
import FormRules.Proofs.InheritedParts
import FormRules.Proofs.KeptOutcomes
import FormRules.Proofs.KeyedEntries
import FormRules.Proofs.KeyedJoins
import FormRules.Proofs.KeyedOrder
import FormRules.Proofs.KeywordOrder
import FormRules.Proofs.LevelRanks
import FormRules.Proofs.MatchingValues
import FormRules.Proofs.Messages
import FormRules.Proofs.MetRules
import FormRules.Proofs.NameOrder
import FormRules.Proofs.NodePaths
import FormRules.Proofs.NumberRange
import FormRules.Proofs.NumberText
import FormRules.Proofs.OutcomeMessages
import FormRules.Proofs.PairedRuns
import FormRules.Proofs.PassConsistency
import FormRules.Proofs.PassLogic
import FormRules.Proofs.PassOutcome
import FormRules.Proofs.PathLookup
import FormRules.Proofs.PathSteps
import FormRules.Proofs.PathWrites
import FormRules.Proofs.PatternSpans
import FormRules.Proofs.QuestionExchange
import FormRules.Proofs.RangeBounds
import FormRules.Proofs.RearrangedItems
import FormRules.Proofs.RegistryHistory
import FormRules.Proofs.ReloadedReports
import FormRules.Proofs.RemoteAnswers
import FormRules.Proofs.ReportConsistency
import FormRules.Proofs.ReportMerging
import FormRules.Proofs.RightAnswers
import FormRules.Proofs.RollupOrder
import FormRules.Proofs.RollupTotals
import FormRules.Proofs.RoundedAmounts
import FormRules.Proofs.RoundingOrder
import FormRules.Proofs.RuleCompletion
import FormRules.Proofs.RuleCounts
import FormRules.Proofs.RuleReads
import FormRules.Proofs.RuleTotals
import FormRules.Proofs.SchemaAgreement
import FormRules.Proofs.SchemaSharing
import FormRules.Proofs.SchemaStore
import FormRules.Proofs.ScoreOrder
import FormRules.Proofs.ScoringRange
import FormRules.Proofs.SharedReport
import FormRules.Proofs.ShortestDigits
import FormRules.Proofs.ShownGraphs
import FormRules.Proofs.SingleField
import FormRules.Proofs.SkippedFields
import FormRules.Proofs.TextNames
import FormRules.Proofs.ToldErrors
import FormRules.Proofs.ValueEquality
import FormRules.Proofs.WholeComparisons
import FormRules.Proofs.WholeForms
import FormRules.Proofs.WholeHundredths
import FormRules.Proofs.WritablePasses
import FormRules.Proofs.WritableReports
import FormRules.Proofs.WritableScores
import FormRules.Proofs.WritableValues
import FormRules.Proofs.ZonedDates
import FormRules.Report.Basic
import FormRules.Report.Document
import FormRules.Rule.Backend
import FormRules.Rule.Calling
import FormRules.Rule.Compare
import FormRules.Rule.Outcome
import FormRules.Rule.Remote
import FormRules.Rule.Static
import FormRules.Rule.Temporal
import FormRules.Schema.Basic
import FormRules.Schema.Document
import FormRules.Schema.Store
import FormRules.Scoring.Choices
import FormRules.Scoring.Exact
import FormRules.Scoring.Keywords
import FormRules.Scoring.Number
import FormRules.Scoring.Numeric
import FormRules.Scoring.Rollup
import FormRules.Scoring.Score
import FormRules.Scoring.Subtype
import FormRules.Settings
import FormRules.Text.Blank
import FormRules.Text.Case
import FormRules.Text.Digit
import FormRules.Text.Printable
import FormRules.Text.Quoted
import FormRules.Text.Range
import FormRules.Text.Sigma
import FormRules.Text.Within
import FormRules.Text.Word
import FormRules.Validator
import FormRules.Value.Access
import FormRules.Value.Arithmetic
import FormRules.Value.Basic
import FormRules.Value.Equality
import FormRules.Value.Key
import FormRules.Value.Order
import FormRules.Value.Span
import FormRules.Value.Text
import FormRules.Value.Whole
import FormRules.Yaml.Cursor
import FormRules.Yaml.Document
import FormRules.Yaml.Label
import FormRules.Yaml.Malformed
import FormRules.Yaml.Node
import FormRules.Yaml.Plain
import FormRules.Yaml.Scalar
import FormRules.Yaml.Token
import FormRules.Yaml.Tokens
