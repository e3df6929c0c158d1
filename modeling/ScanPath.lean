import ScanPath.Cause
import ScanPath.CommandLine
import ScanPath.Composition.Basic
import ScanPath.Composition.Composer
import ScanPath.Composition.Dimension
import ScanPath.Composition.Odometer
import ScanPath.Composition.Pass
import ScanPath.Config.Leaf
import ScanPath.Config.Modifier
import ScanPath.Config.Scan
import ScanPath.Decimal.Layout
import ScanPath.Decimal.Reading
import ScanPath.Decimal.Remainder
import ScanPath.Decimal.Shortest
import ScanPath.Descriptor
import ScanPath.Digest
import ScanPath.Document
import ScanPath.Excluder
import ScanPath.Fault
import ScanPath.Json.Basic
import ScanPath.Json.Printer
import ScanPath.Json.Reader
import ScanPath.Keyed
import ScanPath.Leaf.Basic
import ScanPath.Leaf.Checks
import ScanPath.Leaf.Line
import ScanPath.Leaf.Lissajous
import ScanPath.Leaf.Listed
import ScanPath.Leaf.Spiral
import ScanPath.Lookahead
import ScanPath.Main
import ScanPath.Mutator
import ScanPath.Position
import ScanPath.Projection
import ScanPath.Random
import ScanPath.Region
import ScanPath.Report
import ScanPath.Scan
import ScanPath.Text.Blank
import ScanPath.Text.Quoted
import ScanPath.Text.Unseen
import ScanPath.Trigonometry
import ScanPath.Yaml.Cursor
import ScanPath.Yaml.Node
import ScanPath.Yaml.Reading
import ScanPath.Yaml.Resolution
import ScanPath.Yaml.Scalar
import ScanPath.Yaml.Tag
import ScanPath.Yaml.Token
import ScanPath.Proofs.Checked
import ScanPath.Proofs.Composition.Assembly
import ScanPath.Proofs.Descriptor
import ScanPath.Proofs.Lookahead
import ScanPath.Proofs.Composition.Nesting
import ScanPath.Proofs.Composition.Dimension
import ScanPath.Proofs.Composition.Odometer
import ScanPath.Proofs.Composition.Pass
import ScanPath.Proofs.Keyed
import ScanPath.Proofs.Composition.Candidates
import ScanPath.Proofs.Composition.Size
import ScanPath.Proofs.Composition.Owners
import ScanPath.Proofs.Composition.Grid
import ScanPath.Proofs.Composition.Filtering
import ScanPath.Proofs.Composition.Snaking
import ScanPath.Proofs.Composition.Mutation
import ScanPath.Proofs.Composition.Reordering
import ScanPath.Proofs.Composition.Counting
import ScanPath.Proofs.Composition.Partition
import ScanPath.Proofs.Composition.Exchange
import ScanPath.Proofs.Config
import ScanPath.Proofs.Described
import ScanPath.Proofs.Json
import ScanPath.Proofs.Parameters
import ScanPath.Proofs.Scan
import ScanPath.Proofs.Grouping
import ScanPath.Proofs.Binary64
import ScanPath.Proofs.Composition.Overlaps
import ScanPath.Proofs.Composition.Refusals
import ScanPath.Proofs.Random
import ScanPath.Proofs.Mutator
import ScanPath.Proofs.Composition.Indices
import ScanPath.Proofs.Document
import ScanPath.Proofs.RoundTrip
import ScanPath.Proofs.Substream
import ScanPath.Proofs.Json.Sameness
import ScanPath.Proofs.Grouping.FirstFit
import ScanPath.Proofs.Grouping.Order
import ScanPath.Proofs.Leaf.Pass
import ScanPath.Proofs.Decimal.Shortest
import ScanPath.Proofs.Decimal.Layout
import ScanPath.Proofs.Json.Unambiguous
import ScanPath.Proofs.Json.Reordering
import ScanPath.Proofs.Projection
import ScanPath.Proofs.PointShape
import ScanPath.Proofs.Duplicates
import ScanPath.Proofs.Binary64.Bounds
import ScanPath.Proofs.Binary64.Zeros
import ScanPath.Proofs.Excluder
import ScanPath.Proofs.Leaf.Ends
import ScanPath.Proofs.Leaf.Counts
import ScanPath.Proofs.Report
import ScanPath.Proofs.Binary64.Undefined
import ScanPath.Proofs.Binary64.Order
import ScanPath.Proofs.Undefined
import ScanPath.Proofs.Polygon
import ScanPath.Proofs.Polygon.Vertices
import ScanPath.Proofs.Json.Reading
import ScanPath.Proofs.Document.Objects
import ScanPath.Proofs.Fault
import ScanPath.Proofs.Composition.Range
import ScanPath.Proofs.Report.Columns
import ScanPath.Proofs.Binary64.Error
import ScanPath.Proofs.Composition.Radix
