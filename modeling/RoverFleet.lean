import RoverFleet.Cell
import RoverFleet.Codec.Encoding
import RoverFleet.Codec.Fault
import RoverFleet.Codec.Utf16
import RoverFleet.Codec.Utf8
import RoverFleet.CommandLine.Arguments
import RoverFleet.CommandLine.Libraries
import RoverFleet.CommandLine.Options
import RoverFleet.CommandLine.Run
import RoverFleet.CommandLine.Usage
import RoverFleet.Compass
import RoverFleet.Files.Path
import RoverFleet.Files.System
import RoverFleet.Files.Tree
import RoverFleet.Json.Printer
import RoverFleet.Json.Reader
import RoverFleet.Log.Basic
import RoverFleet.Log.Conversion
import RoverFleet.Log.Line
import RoverFleet.Log.Template
import RoverFleet.Main
import RoverFleet.Numeric.Binary64
import RoverFleet.Numeric.Decimal
import RoverFleet.Numeric.Literal
import RoverFleet.Numeric.Places
import RoverFleet.Numeric.Rounding
import RoverFleet.Numeric.Shortest
import RoverFleet.Plateau
import RoverFleet.Proofs.Acceptance
import RoverFleet.Proofs.Additions
import RoverFleet.Proofs.Agreement
import RoverFleet.Proofs.Alphabet
import RoverFleet.Proofs.Atomicity
import RoverFleet.Proofs.Check
import RoverFleet.Proofs.Clearance
import RoverFleet.Proofs.Comparison
import RoverFleet.Proofs.Construction
import RoverFleet.Proofs.Containment
import RoverFleet.Proofs.Coordinates
import RoverFleet.Proofs.Course
import RoverFleet.Proofs.Cutoff
import RoverFleet.Proofs.Decoding
import RoverFleet.Proofs.Discovery
import RoverFleet.Proofs.Displacement
import RoverFleet.Proofs.Document
import RoverFleet.Proofs.Echo
import RoverFleet.Proofs.Edits
import RoverFleet.Proofs.Environment
import RoverFleet.Proofs.Exchange
import RoverFleet.Proofs.Extremes
import RoverFleet.Proofs.Flags
import RoverFleet.Proofs.Form
import RoverFleet.Proofs.Grammar
import RoverFleet.Proofs.Journal
import RoverFleet.Proofs.Judgement
import RoverFleet.Proofs.Keyed
import RoverFleet.Proofs.Law
import RoverFleet.Proofs.Layers
import RoverFleet.Proofs.Layout
import RoverFleet.Proofs.Leaves
import RoverFleet.Proofs.Libraries
import RoverFleet.Proofs.Lines
import RoverFleet.Proofs.Literals
import RoverFleet.Proofs.Locality
import RoverFleet.Proofs.Lossless
import RoverFleet.Proofs.Loyalty
import RoverFleet.Proofs.Moments
import RoverFleet.Proofs.Nearest
import RoverFleet.Proofs.Numeral
import RoverFleet.Proofs.Outcome
import RoverFleet.Proofs.Payload
import RoverFleet.Proofs.Placement
import RoverFleet.Proofs.Precedence
import RoverFleet.Proofs.Reading
import RoverFleet.Proofs.Registry
import RoverFleet.Proofs.Reprint
import RoverFleet.Proofs.Rereading
import RoverFleet.Proofs.Resizing
import RoverFleet.Proofs.Resolution
import RoverFleet.Proofs.Return
import RoverFleet.Proofs.Rows
import RoverFleet.Proofs.Scalars
import RoverFleet.Proofs.Steps
import RoverFleet.Proofs.Stopping
import RoverFleet.Proofs.Streams
import RoverFleet.Proofs.Tokens
import RoverFleet.Proofs.Trail
import RoverFleet.Proofs.Turning
import RoverFleet.Proofs.Utf8
import RoverFleet.Proofs.Walk
import RoverFleet.Proofs.Width
import RoverFleet.Report.Basic
import RoverFleet.Report.Console
import RoverFleet.Report.Format
import RoverFleet.Script.Basic
import RoverFleet.Script.File
import RoverFleet.Script.Run
import RoverFleet.Session
import RoverFleet.Settings.Basic
import RoverFleet.Settings.Discovery
import RoverFleet.Settings.Layers
import RoverFleet.Settings.Load
import RoverFleet.Settings.Rules
import RoverFleet.Settings.Variables
import RoverFleet.Simulation
import RoverFleet.Text.Blank
import RoverFleet.Text.ColumnRanges
import RoverFleet.Text.Columns
import RoverFleet.Text.Printable
import RoverFleet.Text.Quoted
import RoverFleet.Text.Similarity
import RoverFleet.Text.Terminal
import RoverFleet.Text.Uppercase
import RoverFleet.Toml.Fault
import RoverFleet.Toml.Reader
import RoverFleet.Toml.Scalar
import RoverFleet.Toml.Tables
import RoverFleet.Validation
import RoverFleet.Value
