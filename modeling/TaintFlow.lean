import TaintFlow.Address
import TaintFlow.Analysis.Analyze
import TaintFlow.Analysis.Env
import TaintFlow.Analysis.Evaluate
import TaintFlow.Analysis.Execute
import TaintFlow.Analysis.Mark
import TaintFlow.Analysis.Options
import TaintFlow.Analysis.Run
import TaintFlow.Clock
import TaintFlow.Command.Arguments
import TaintFlow.Command.Banner
import TaintFlow.Command.Help
import TaintFlow.Command.Message
import TaintFlow.Command.Run
import TaintFlow.Config
import TaintFlow.Data.Datum
import TaintFlow.Data.Display
import TaintFlow.Data.Document
import TaintFlow.Data.Timestamp
import TaintFlow.Files.Discovery
import TaintFlow.Files.Disk
import TaintFlow.Files.Path
import TaintFlow.Files.Sha256
import TaintFlow.Html
import TaintFlow.Json.Reader
import TaintFlow.Json.Token
import TaintFlow.Json.Writer
import TaintFlow.Limits
import TaintFlow.Log.Event
import TaintFlow.Log.Line
import TaintFlow.Log.Setting
import TaintFlow.Log.Template
import TaintFlow.Main
import TaintFlow.Number.Arithmetic
import TaintFlow.Number.Binary64
import TaintFlow.Number.Digits
import TaintFlow.Number.Notation
import TaintFlow.Number.Numeral
import TaintFlow.Number.Shortest
import TaintFlow.OrderedMap
import TaintFlow.OrderedSet
import TaintFlow.Pattern.Basic
import TaintFlow.Pattern.Bundled
import TaintFlow.Pattern.Catalog
import TaintFlow.Pattern.File
import TaintFlow.Proofs.Environment
import TaintFlow.Proofs.Statement
import TaintFlow.Proofs.Tree
import TaintFlow.Report.Generate
import TaintFlow.Report.Page
import TaintFlow.Report.Plain
import TaintFlow.Report.Value
import TaintFlow.Scan
import TaintFlow.Service
import TaintFlow.Syntax.Builder
import TaintFlow.Syntax.Load
import TaintFlow.Syntax.Node
import TaintFlow.Tally
import TaintFlow.Terminal
import TaintFlow.Text.Base64
import TaintFlow.Text.Blank
import TaintFlow.Text.Capital
import TaintFlow.Text.Digit
import TaintFlow.Text.Hex
import TaintFlow.Text.Printable
import TaintFlow.Text.Quoted
import TaintFlow.Text.Utf8
import TaintFlow.Text.Wide
import TaintFlow.Yaml.Cursor
import TaintFlow.Yaml.Error
import TaintFlow.Yaml.File
import TaintFlow.Yaml.Graph
import TaintFlow.Yaml.Tag
import TaintFlow.Yaml.Text
import TaintFlow.Yaml.Token
import TaintFlow.Yaml.Value
import TaintFlow.Proofs.Frame
import TaintFlow.Proofs.Bounds
import TaintFlow.Proofs.Provenance
import TaintFlow.Proofs.Joins
import TaintFlow.Proofs.Paths
import TaintFlow.Proofs.Termination
import TaintFlow.Proofs.LeastFixedPoint
import TaintFlow.Proofs.Coupling
import TaintFlow.Proofs.Pruning
import TaintFlow.Proofs.Locality
import TaintFlow.Proofs.View
import TaintFlow.Proofs.Commutation
import TaintFlow.Proofs.Independence
import TaintFlow.Proofs.Settling
import TaintFlow.Proofs.Invariants
import TaintFlow.Proofs.BranchOrder
import TaintFlow.Proofs.Renaming
import TaintFlow.Proofs.Narrowing
import TaintFlow.Proofs.Reports
import TaintFlow.Proofs.CatalogOrder
import TaintFlow.Proofs.Scanning
import TaintFlow.Proofs.Accounting
import TaintFlow.Proofs.Building
import TaintFlow.Proofs.Reasons
import TaintFlow.Proofs.Agreement
import TaintFlow.Proofs.Isolation
import TaintFlow.Proofs.TextFormat
import TaintFlow.Proofs.Degradations
import TaintFlow.Proofs.Buildable
import TaintFlow.Proofs.ExitStatus
import TaintFlow.Proofs.Calls
import TaintFlow.Proofs.Clearing
import TaintFlow.Proofs.Deletion
import TaintFlow.Proofs.Encoding
import TaintFlow.Proofs.Merging
import TaintFlow.Proofs.Attempts
import TaintFlow.Proofs.Loading
import TaintFlow.Proofs.Exporting
import TaintFlow.Proofs.Concatenation
import TaintFlow.Proofs.Lattice
import TaintFlow.Proofs.Directories
import TaintFlow.Proofs.Discovery
import TaintFlow.Proofs.Escaping
import TaintFlow.Proofs.Reading
