import QueryNames.Archive.Crc32
import QueryNames.Archive.Directory
import QueryNames.Archive.Entry
import QueryNames.Archive.Inflate
import QueryNames.Archive.Record
import QueryNames.Archive.Zip
import QueryNames.Batch
import QueryNames.CommandLine.Command
import QueryNames.CommandLine.Outcome
import QueryNames.CommandLine.Parameter
import QueryNames.Diagnostic
import QueryNames.Encoding.CodePage437
import QueryNames.Encoding.QueryText
import QueryNames.Encoding.Utf16
import QueryNames.Encoding.Utf8
import QueryNames.Encoding.Windows1252
import QueryNames.Extraction
import QueryNames.Failure
import QueryNames.Files.Discovery
import QueryNames.Files.Entry
import QueryNames.Files.QueryFile
import QueryNames.Grammar.Cursor
import QueryNames.Grammar.Expression
import QueryNames.Grammar.Level
import QueryNames.Grammar.Name
import QueryNames.Grammar.Parser
import QueryNames.Grammar.Query
import QueryNames.Grammar.Recovery
import QueryNames.Grammar.Script
import QueryNames.Grammar.Source
import QueryNames.Keyword
import QueryNames.Location
import QueryNames.Main
import QueryNames.Name
import QueryNames.Outline
import QueryNames.Piece
import QueryNames.Proofs.Address.Node
import QueryNames.Proofs.Address.Order
import QueryNames.Proofs.Address.Slot
import QueryNames.Proofs.Announced.Expression
import QueryNames.Proofs.Announced.Name
import QueryNames.Proofs.Announced.Query
import QueryNames.Proofs.Announced.Rules
import QueryNames.Proofs.Announced.Wake
import QueryNames.Proofs.AnnouncedNames
import QueryNames.Proofs.BatchDivision
import QueryNames.Proofs.BatchIsolation
import QueryNames.Proofs.Built.Expression
import QueryNames.Proofs.Built.Query
import QueryNames.Proofs.Built.Rules
import QueryNames.Proofs.Built.Tree
import QueryNames.Proofs.CollectedScripts
import QueryNames.Proofs.CutStream
import QueryNames.Proofs.Dangling.Expression
import QueryNames.Proofs.Dangling.Operator
import QueryNames.Proofs.Dangling.Overhang
import QueryNames.Proofs.Dangling.Query
import QueryNames.Proofs.Dangling.Rules
import QueryNames.Proofs.Dangling.Tally
import QueryNames.Proofs.DanglingOperator
import QueryNames.Proofs.Depth.Expression
import QueryNames.Proofs.Depth.Inside
import QueryNames.Proofs.Depth.Query
import QueryNames.Proofs.Depth.Rules
import QueryNames.Proofs.DescribedCatalog
import QueryNames.Proofs.DiagnosticOrder
import QueryNames.Proofs.DottedParts
import QueryNames.Proofs.ExactPlaces
import QueryNames.Proofs.FromList
import QueryNames.Proofs.Grammar.Absent
import QueryNames.Proofs.Grammar.Cursor
import QueryNames.Proofs.Grammar.Script
import QueryNames.Proofs.Grammar.Triple
import QueryNames.Proofs.Groups.Expression
import QueryNames.Proofs.Groups.Name
import QueryNames.Proofs.Groups.Open
import QueryNames.Proofs.Groups.Query
import QueryNames.Proofs.Groups.Rules
import QueryNames.Proofs.Height.Expression
import QueryNames.Proofs.Height.Query
import QueryNames.Proofs.Height.Tree
import QueryNames.Proofs.JoinedQueries
import QueryNames.Proofs.LayoutIndependence
import QueryNames.Proofs.LetterCase
import QueryNames.Proofs.LosslessTokens
import QueryNames.Proofs.Mark
import QueryNames.Proofs.Mention
import QueryNames.Proofs.NameLookup
import QueryNames.Proofs.NamedParts
import QueryNames.Proofs.NestingLimit
import QueryNames.Proofs.OneBatch
import QueryNames.Proofs.OneQuery
import QueryNames.Proofs.OrderedDiagnostics
import QueryNames.Proofs.Ordering.Call
import QueryNames.Proofs.Ordering.Items
import QueryNames.Proofs.OrderingColumns
import QueryNames.Proofs.OtherStatement
import QueryNames.Proofs.PackageLookup
import QueryNames.Proofs.Parallel.Alone
import QueryNames.Proofs.Parallel.Border
import QueryNames.Proofs.Parallel.Enclosed
import QueryNames.Proofs.Parallel.Expression
import QueryNames.Proofs.Parallel.Query
import QueryNames.Proofs.Parallel.Rules
import QueryNames.Proofs.Parallel.SetOperation
import QueryNames.Proofs.Parenthesized
import QueryNames.Proofs.Precedence
import QueryNames.Proofs.Progress
import QueryNames.Proofs.PrunedVisits
import QueryNames.Proofs.QuotedNames
import QueryNames.Proofs.QuotedText
import QueryNames.Proofs.ReadToEnd
import QueryNames.Proofs.Reading.Expression
import QueryNames.Proofs.Reading.Query
import QueryNames.Proofs.Rendition.Expression
import QueryNames.Proofs.Rendition.Piece
import QueryNames.Proofs.Rendition.Query
import QueryNames.Proofs.Rendition.Rules
import QueryNames.Proofs.Rendition.Script
import QueryNames.Proofs.Rendition.Text
import QueryNames.Proofs.ReportedFailures
import QueryNames.Proofs.Resumption.Query
import QueryNames.Proofs.Resumption.Skip
import QueryNames.Proofs.SelectItemRecovery
import QueryNames.Proofs.Semicolon.Edge
import QueryNames.Proofs.Semicolon.Expression
import QueryNames.Proofs.Semicolon.Query
import QueryNames.Proofs.Semicolon.Rules
import QueryNames.Proofs.Semicolon.Script
import QueryNames.Proofs.SeparatorLines
import QueryNames.Proofs.SkippedGroups
import QueryNames.Proofs.SourceOrder
import QueryNames.Proofs.SpacedTokens
import QueryNames.Proofs.Starless.Expression
import QueryNames.Proofs.Starless.Query
import QueryNames.Proofs.Starless.Rules
import QueryNames.Proofs.StatementIsolation
import QueryNames.Proofs.Stepwise.Expression
import QueryNames.Proofs.Stepwise.Places
import QueryNames.Proofs.Stepwise.Query
import QueryNames.Proofs.Stepwise.Rules
import QueryNames.Proofs.Stepwise.Runs
import QueryNames.Proofs.Text.DottedName
import QueryNames.Proofs.Text.Identifier
import QueryNames.Proofs.Text.Ink
import QueryNames.Proofs.Text.Kind
import QueryNames.Proofs.Text.Known
import QueryNames.Proofs.Text.LineEnd
import QueryNames.Proofs.Text.LineFeed
import QueryNames.Proofs.Text.QuotedName
import QueryNames.Proofs.Text.SeparatorLine
import QueryNames.Proofs.TreeHeight
import QueryNames.Proofs.UnbalancedGroups
import QueryNames.Proofs.UnknownTokens
import QueryNames.Proofs.WildcardDetection
import QueryNames.Proofs.WildcardResolution
import QueryNames.Report
import QueryNames.Resolution
import QueryNames.Schema.Catalog
import QueryNames.Schema.Model
import QueryNames.Schema.Package
import QueryNames.Schema.Provider
import QueryNames.Text.Blank
import QueryNames.Text.Letter
import QueryNames.Text.Lowercase
import QueryNames.Text.Quoted
import QueryNames.Token
import QueryNames.TokenStream
import QueryNames.Tree
import QueryNames.Visit
import QueryNames.Xml.Character
import QueryNames.Xml.CharacterData
import QueryNames.Xml.Element
import QueryNames.Xml.Markup
import QueryNames.Xml.Name
import QueryNames.Xml.Reading
import QueryNames.Proofs.DecodedFiles
import QueryNames.Proofs.Discovery
