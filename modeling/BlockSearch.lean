import BlockSearch.CommandLine.Reach
import BlockSearch.Main
import BlockSearch.FileTree.Change
import BlockSearch.Proofs.Block.Geometry
import BlockSearch.Proofs.Block.Headings
import BlockSearch.Proofs.Scan.CompletionOrder
import BlockSearch.Proofs.Engine.Pipeline
import BlockSearch.Proofs.Discovery.DirectoryNames
import BlockSearch.Proofs.Discovery.NamedFiles
import BlockSearch.Proofs.Block.Alternation
import BlockSearch.Proofs.FileTree.Names
import BlockSearch.Proofs.Glob.Depth
import BlockSearch.Proofs.Discovery.Walking
import BlockSearch.Proofs.Discovery.Globs
import BlockSearch.Proofs.Exclusion.Convention
import BlockSearch.Proofs.Discovery.Pruning
import BlockSearch.Proofs.Discovery.Requests
import BlockSearch.Proofs.Discovery.Distinct
import BlockSearch.Proofs.Report.Renditions
import BlockSearch.Proofs.FilePattern.ExtensionFilter
import BlockSearch.Proofs.Block.WholeWords
import BlockSearch.Proofs.Block.Description
import BlockSearch.Proofs.CommandLine.Agreement
import BlockSearch.Proofs.Symbol.FreeStanding
import BlockSearch.Proofs.Block.Equivariance
import BlockSearch.Proofs.Block.HeadingLine
import BlockSearch.Proofs.Discovery.Composition
import BlockSearch.Proofs.Scan.Consumer
import BlockSearch.Proofs.Scan.Faults
import BlockSearch.Proofs.Symbol.Recency
import BlockSearch.Proofs.Compaction.LineComments
import BlockSearch.Proofs.Compaction.Repetition
import BlockSearch.Proofs.FilePattern.Repetition
import BlockSearch.Proofs.Compaction.OnePass
import BlockSearch.Proofs.Block.SpanSearch
import BlockSearch.Proofs.Budget.Holders
