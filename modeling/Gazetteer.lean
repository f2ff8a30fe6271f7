import Gazetteer.Text.Blank
import Gazetteer.Text.Utf8
import Gazetteer.Ordered.Entries
import Gazetteer.Ordered.SortedMap
import Gazetteer.Ordered.SortedSet
import Gazetteer.Convention.Detect
import Gazetteer.Files.Path
import Gazetteer.Json.Number
import Gazetteer.Json.Parser
import Gazetteer.Json.Printer
import Gazetteer.Json.Reader
import Gazetteer.Manifest.Document
import Gazetteer.Manifest.Markdown
import Gazetteer.Manifest.Merge
import Gazetteer.Outline.Declaration
import Gazetteer.Outline.Extraction
import Gazetteer.Registry.Coverage
import Gazetteer.CommandLine.Arguments
import Gazetteer.CommandLine.Display
import Gazetteer.CommandLine.Run
import Gazetteer.Main
import Gazetteer.Proofs.Upkeep.Failure
import Gazetteer.Proofs.Upkeep.Idempotence
import Gazetteer.Proofs.Upkeep.Preservation
import Gazetteer.Proofs.Json.Nesting
import Gazetteer.Proofs.Manifest.RoundTrip
import Gazetteer.Proofs.Manifest.Content
import Gazetteer.Proofs.Upkeep.Interruption
import Gazetteer.Proofs.Upkeep.Recovery
import Gazetteer.Proofs.Upkeep.Detection
import Gazetteer.Proofs.Upkeep.Confinement
import Gazetteer.Proofs.History.Net
import Gazetteer.Proofs.History.Layout
import Gazetteer.Proofs.Project.Accounting
import Gazetteer.Proofs.Project.Arrival
import Gazetteer.Proofs.Project.Pruning
import Gazetteer.Proofs.Upkeep.Relevance
import Gazetteer.Proofs.Upkeep.Carryover
import Gazetteer.Proofs.Outline.Order
import Gazetteer.Proofs.Outline.Backing
import Gazetteer.Proofs.Project.Comments
import Gazetteer.Proofs.Registry.Canonical
import Gazetteer.Proofs.Project.Entries
import Gazetteer.Proofs.Outline.Imports
import Gazetteer.Proofs.Project.Aliases
import Gazetteer.Proofs.Registry.Percentage
import Gazetteer.Proofs.Manifest.SymbolTable
import Gazetteer.Proofs.Files.Relative
import Gazetteer.Proofs.Convention.Counters
import Gazetteer.Proofs.Convention.Naming
import Gazetteer.Proofs.Convention.Growth
import Gazetteer.Proofs.Syntax.Faults
import Gazetteer.Proofs.Syntax.Reading
