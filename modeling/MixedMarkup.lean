import MixedMarkup.CommandLine.Arguments
import MixedMarkup.CommandLine.Run
import MixedMarkup.Cursor
import MixedMarkup.Document
import MixedMarkup.Failure
import MixedMarkup.FileEntry
import MixedMarkup.Main
import MixedMarkup.Markup.Element
import MixedMarkup.Markup.Indentation
import MixedMarkup.Markup.Lexeme
import MixedMarkup.Markup.State
import MixedMarkup.Markup.Tag
import MixedMarkup.Markup.Tokenizer
import MixedMarkup.Mixed.ClosingTag
import MixedMarkup.Mixed.Composite
import MixedMarkup.Mixed.Html
import MixedMarkup.Mixed.ScriptType
import MixedMarkup.Options
import MixedMarkup.Pattern.AtCursor
import MixedMarkup.Pattern.CharSet
import MixedMarkup.Pattern.Expr
import MixedMarkup.Pattern.Reader
import MixedMarkup.Plain
import MixedMarkup.Proofs.Abreast
import MixedMarkup.Proofs.AlikeMarkup
import MixedMarkup.Proofs.AlikeReading
import MixedMarkup.Proofs.BalancedMarkup
import MixedMarkup.Proofs.BracketBalance
import MixedMarkup.Proofs.CaseBlindness
import MixedMarkup.Proofs.CheckedCursor
import MixedMarkup.Proofs.CheckedTokens
import MixedMarkup.Proofs.ClosingAgreement
import MixedMarkup.Proofs.ClosingTag
import MixedMarkup.Proofs.Consumption
import MixedMarkup.Proofs.Coverage
import MixedMarkup.Proofs.CursorOperations
import MixedMarkup.Proofs.DeclarationFlags
import MixedMarkup.Proofs.DeclaredType
import MixedMarkup.Proofs.EmbeddedFates
import MixedMarkup.Proofs.Erasure
import MixedMarkup.Proofs.EscapeParity
import MixedMarkup.Proofs.FixedPatterns
import MixedMarkup.Proofs.HiddenContent
import MixedMarkup.Proofs.History
import MixedMarkup.Proofs.ImpliedEnds
import MixedMarkup.Proofs.IndentationFree
import MixedMarkup.Proofs.LayeredSettings
import MixedMarkup.Proofs.LetterCase
import MixedMarkup.Proofs.LineOutcome
import MixedMarkup.Proofs.LoweredMarkup
import MixedMarkup.Proofs.LoweredReading
import MixedMarkup.Proofs.LoweredRegions
import MixedMarkup.Proofs.Movement
import MixedMarkup.Proofs.OpenConstructs
import MixedMarkup.Proofs.OpenElements
import MixedMarkup.Proofs.OpeningAfterErrors
import MixedMarkup.Proofs.ParkedHost
import MixedMarkup.Proofs.Passages
import MixedMarkup.Proofs.PatternRuns
import MixedMarkup.Proofs.RegionEntry
import MixedMarkup.Proofs.RegionExit
import MixedMarkup.Proofs.RegionIndependence
import MixedMarkup.Proofs.RegionLeaving
import MixedMarkup.Proofs.RegistryHistory
import MixedMarkup.Proofs.RuleIndependence
import MixedMarkup.Proofs.SimpleReport
import MixedMarkup.Proofs.StateComparison
import MixedMarkup.Proofs.TagContinuation
import MixedMarkup.Proofs.TagStages
import MixedMarkup.Proofs.TagTexts
import MixedMarkup.Proofs.Tiling
import MixedMarkup.Proofs.TokenFates
import MixedMarkup.Proofs.TokensByLine
import MixedMarkup.Proofs.TornTags
import MixedMarkup.Proofs.Transparency
import MixedMarkup.Proofs.TrimmedTokens
import MixedMarkup.Proofs.VisibleBrackets
import MixedMarkup.Registry
import MixedMarkup.Report
import MixedMarkup.Scan
import MixedMarkup.Script.Lexeme
import MixedMarkup.Script.Tokenizer
import MixedMarkup.Settings.Conversion
import MixedMarkup.Settings.Layering
import MixedMarkup.Settings.Path
import MixedMarkup.Settings.Toml
import MixedMarkup.Settings.Toml.Draft
import MixedMarkup.Settings.Toml.Word
import MixedMarkup.Settings.Value
import MixedMarkup.Style
import MixedMarkup.Stylesheet.Lexeme
import MixedMarkup.Stylesheet.Tokenizer
import MixedMarkup.Text.Alphabetic
import MixedMarkup.Text.Blank
import MixedMarkup.Text.Bytes
import MixedMarkup.Text.CaseFolding
import MixedMarkup.Text.Column
import MixedMarkup.Text.Digits
import MixedMarkup.Text.Numeric
import MixedMarkup.Text.Printable
import MixedMarkup.Text.Quoted
import MixedMarkup.Text.Ranges
import MixedMarkup.Text.Reader
import MixedMarkup.Text.Shortest
import MixedMarkup.Text.Word
import MixedMarkup.Tokenizer
