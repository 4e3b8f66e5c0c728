import QueryTemplate.Captures
import QueryTemplate.Classify
import QueryTemplate.Config.Document
import QueryTemplate.Config.Settings
import QueryTemplate.Context
import QueryTemplate.Engine
import QueryTemplate.Error
import QueryTemplate.Filter.Builtin
import QueryTemplate.Filter.Registry
import QueryTemplate.Format
import QueryTemplate.Instrument
import QueryTemplate.Marker
import QueryTemplate.NameHint
import QueryTemplate.NameMap
import QueryTemplate.Proofs.Awaiting
import QueryTemplate.Proofs.BasicTags
import QueryTemplate.Proofs.Binding
import QueryTemplate.Proofs.BracketCounts
import QueryTemplate.Proofs.BuiltinChains
import QueryTemplate.Proofs.BytePositions
import QueryTemplate.Proofs.ByteScanning
import QueryTemplate.Proofs.ByteSlices
import QueryTemplate.Proofs.Detached
import QueryTemplate.Proofs.Direct
import QueryTemplate.Proofs.EngineUpdates
import QueryTemplate.Proofs.Evaluating
import QueryTemplate.Proofs.ExactlyOnce
import QueryTemplate.Proofs.Exactness
import QueryTemplate.Proofs.ExpressionTags
import QueryTemplate.Proofs.FilterChains
import QueryTemplate.Proofs.FilterDispatch
import QueryTemplate.Proofs.FilterHistory
import QueryTemplate.Proofs.FilterTrees
import QueryTemplate.Proofs.FirstFailure
import QueryTemplate.Proofs.Formatting
import QueryTemplate.Proofs.FragmentEvaluation
import QueryTemplate.Proofs.FragmentParsing
import QueryTemplate.Proofs.FragmentRendering
import QueryTemplate.Proofs.FragmentTokens
import QueryTemplate.Proofs.Fragments
import QueryTemplate.Proofs.IncludedFailures
import QueryTemplate.Proofs.InstrumentedTags
import QueryTemplate.Proofs.Keeping
import QueryTemplate.Proofs.KeyAllocation
import QueryTemplate.Proofs.KeySearch
import QueryTemplate.Proofs.Lexing
import QueryTemplate.Proofs.LineStructure
import QueryTemplate.Proofs.ListedNames
import QueryTemplate.Proofs.MarkerGrammar
import QueryTemplate.Proofs.MediatedEvaluation
import QueryTemplate.Proofs.MediatedParsing
import QueryTemplate.Proofs.MediatedRendering
import QueryTemplate.Proofs.Mediation
import QueryTemplate.Proofs.NameHints
import QueryTemplate.Proofs.NameResolution
import QueryTemplate.Proofs.Nesting
import QueryTemplate.Proofs.Noninterference
import QueryTemplate.Proofs.Passes
import QueryTemplate.Proofs.Paths
import QueryTemplate.Proofs.PlaceholderKeys
import QueryTemplate.Proofs.QuotedIdentifiers
import QueryTemplate.Proofs.Reading
import QueryTemplate.Proofs.RenderSight
import QueryTemplate.Proofs.RenderedKeys
import QueryTemplate.Proofs.ReplayLogs
import QueryTemplate.Proofs.Replaying
import QueryTemplate.Proofs.SearchOrder
import QueryTemplate.Proofs.Sequential
import QueryTemplate.Proofs.SightedEvaluation
import QueryTemplate.Proofs.SightedRendering
import QueryTemplate.Proofs.SliceSafety
import QueryTemplate.Proofs.SourceParts
import QueryTemplate.Proofs.SourceSpans
import QueryTemplate.Proofs.StyleIndependence
import QueryTemplate.Proofs.SuspendedPass
import QueryTemplate.Proofs.TagAgreement
import QueryTemplate.Proofs.TagBalance
import QueryTemplate.Proofs.TagLexing
import QueryTemplate.Proofs.TagScanning
import QueryTemplate.Proofs.TagTokens
import QueryTemplate.Proofs.Tracing
import QueryTemplate.Proofs.Undefined
import QueryTemplate.Proofs.WrappedExpressions
import QueryTemplate.Proofs.Wrappers
import QueryTemplate.Render.Pass
import QueryTemplate.Render.Replay
import QueryTemplate.Reserved
import QueryTemplate.Search.FileTree
import QueryTemplate.Search.SearchPath
import QueryTemplate.Style
import QueryTemplate.Suspend
import QueryTemplate.Template.Access
import QueryTemplate.Template.Apply
import QueryTemplate.Template.Ast
import QueryTemplate.Template.Call
import QueryTemplate.Template.Eval
import QueryTemplate.Template.Expression
import QueryTemplate.Template.FreeNames
import QueryTemplate.Template.Inclusion
import QueryTemplate.Template.Lexer
import QueryTemplate.Template.Literal
import QueryTemplate.Template.Parser
import QueryTemplate.Template.Place
import QueryTemplate.Template.Program
import QueryTemplate.Template.Run
import QueryTemplate.Template.Statement
import QueryTemplate.Template.Stock.Arguments
import QueryTemplate.Template.Stock.FormatFilter
import QueryTemplate.Template.Stock.ListFilters
import QueryTemplate.Template.Stock.NumberFilters
import QueryTemplate.Template.Stock.Predicates
import QueryTemplate.Template.Stock.TextFilters
import QueryTemplate.Template.Store
import QueryTemplate.Template.Token
import QueryTemplate.Text.Case
import QueryTemplate.Text.CaseClass
import QueryTemplate.Text.Html
import QueryTemplate.Text.Quoted
import QueryTemplate.Text.Scan
import QueryTemplate.Text.Utf8
import QueryTemplate.Value.Arith
import QueryTemplate.Value.Basic
import QueryTemplate.Value.Json
import QueryTemplate.Value.Number
import QueryTemplate.Value.Order
import QueryTemplate.Value.Places
import QueryTemplate.Value.Show
