import ModuleGraph.Analysis
import ModuleGraph.CommandLine.Arguments
import ModuleGraph.CommandLine.Command
import ModuleGraph.CommandLine.Run
import ModuleGraph.CommandLine.Snapshot
import ModuleGraph.Declaration.Basic
import ModuleGraph.Discovery
import ModuleGraph.Disk
import ModuleGraph.Edge.Basic
import ModuleGraph.Edge.Request
import ModuleGraph.Extension.Kind
import ModuleGraph.Extension.Table
import ModuleGraph.Extension.Written
import ModuleGraph.Extraction
import ModuleGraph.Graph.Basic
import ModuleGraph.Graph.Build
import ModuleGraph.Graph.Cycle
import ModuleGraph.Graph.Indexed
import ModuleGraph.Graph.Reach
import ModuleGraph.Graph.Stats
import ModuleGraph.Ignore.Glob
import ModuleGraph.Ignore.Rule
import ModuleGraph.Json.Basic
import ModuleGraph.Json.Number
import ModuleGraph.Json.Printer
import ModuleGraph.Json.Raw
import ModuleGraph.Json.Reader
import ModuleGraph.Json.Relaxed
import ModuleGraph.Json.Token
import ModuleGraph.Main
import ModuleGraph.Path.Absolute
import ModuleGraph.Path.Ascent
import ModuleGraph.Path.Basic
import ModuleGraph.Path.Raw
import ModuleGraph.Path.Route
import ModuleGraph.Path.Trail
import ModuleGraph.Record.Basic
import ModuleGraph.Report.Cycles
import ModuleGraph.Report.Edges
import ModuleGraph.Report.Format
import ModuleGraph.Report.Inspection
import ModuleGraph.Report.Statistics
import ModuleGraph.Resolution.Aliases
import ModuleGraph.Resolution.Exports
import ModuleGraph.Resolution.Lookup
import ModuleGraph.Resolution.Package
import ModuleGraph.Resolution.Resolver
import ModuleGraph.Resolution.Written
import ModuleGraph.Settings
import ModuleGraph.Source.Cursor
import ModuleGraph.Source.Grammar
import ModuleGraph.Source.Lower
import ModuleGraph.Source.Pattern
import ModuleGraph.Source.Scan
import ModuleGraph.Source.Text
import ModuleGraph.Source.Tree
import ModuleGraph.Specifier.Basic
import ModuleGraph.Specifier.Normalize
import ModuleGraph.Syntax.Finding
import ModuleGraph.Syntax.Item
import ModuleGraph.Text.Alphanumeric
import ModuleGraph.Text.Ascii
import ModuleGraph.Text.Blank
import ModuleGraph.Text.Bytes
import ModuleGraph.Text.Numeral
import ModuleGraph.Text.Quoted
import ModuleGraph.Text.Regular
import ModuleGraph.Text.Split
import ModuleGraph.Text.Unprintable
import ModuleGraph.Text.Wildcard
import ModuleGraph.Toml.Basic
import ModuleGraph.Toml.Reader
import ModuleGraph.Toml.Scalar
import ModuleGraph.Toml.Token
import ModuleGraph.Proofs.Graph.Circles
import ModuleGraph.Proofs.Graph.Cycles
import ModuleGraph.Proofs.Path.Action
import ModuleGraph.Proofs.Path.Route
import ModuleGraph.Proofs.Path.Resolve
import ModuleGraph.Proofs.Specifier.Canonical
import ModuleGraph.Proofs.Specifier.Readings
import ModuleGraph.Proofs.Edge.Merge
import ModuleGraph.Proofs.Source.Preorder
import ModuleGraph.Proofs.Declaration.Found
import ModuleGraph.Proofs.Declaration.Preorder
import ModuleGraph.Proofs.Source.Coverage
import ModuleGraph.Proofs.Extraction.Erasure
import ModuleGraph.Proofs.Extraction.Candidates
import ModuleGraph.Proofs.Path.Normal
import ModuleGraph.Proofs.Graph.Identity
import ModuleGraph.Proofs.Graph.Build
import ModuleGraph.Proofs.Graph.Requires
import ModuleGraph.Proofs.Graph.FileOrder
import ModuleGraph.Proofs.Extraction.WellFormed
import ModuleGraph.Proofs.Graph.Target
import ModuleGraph.Proofs.Graph.Indexed
import ModuleGraph.Proofs.Extraction.ItemOrder
import ModuleGraph.Proofs.Report.Names
import ModuleGraph.Proofs.Discovery.Relocation
import ModuleGraph.Proofs.Specifier.Spelling
import ModuleGraph.Proofs.Specifier.Placement
import ModuleGraph.Proofs.Extension.Keys
import ModuleGraph.Proofs.Extension.Insertions
import ModuleGraph.Proofs.Extraction.CandidatePaths
import ModuleGraph.Proofs.Extraction.Emission
import ModuleGraph.Proofs.Extraction.Locals
import ModuleGraph.Proofs.Graph.Lookup
import ModuleGraph.Proofs.Graph.Missing
import ModuleGraph.Proofs.Graph.Balance
import ModuleGraph.Proofs.Text.Cut
import ModuleGraph.Proofs.Declaration.Globals
import ModuleGraph.Proofs.Source.Patterns
import ModuleGraph.Proofs.Source.StarAlias
import ModuleGraph.Proofs.Graph.Assets
import ModuleGraph.Proofs.Edge.Package
import ModuleGraph.Proofs.Graph.Packages
