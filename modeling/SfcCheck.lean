import SfcCheck.CommandLine
import SfcCheck.Decimal.Binary
import SfcCheck.Decimal.Digits
import SfcCheck.Decimal.Layout
import SfcCheck.Decimal.Number
import SfcCheck.Diagnostic
import SfcCheck.Document
import SfcCheck.Fault
import SfcCheck.FileTree
import SfcCheck.Frame
import SfcCheck.Json.Basic
import SfcCheck.Json.Display
import SfcCheck.Json.Parser
import SfcCheck.Json.Printer
import SfcCheck.Json.Relaxed
import SfcCheck.Main
import SfcCheck.ModelCache
import SfcCheck.Path
import SfcCheck.Proofs.Attempt
import SfcCheck.Proofs.Document.Lines
import SfcCheck.Proofs.Document.Position
import SfcCheck.Proofs.Json.Numbers
import SfcCheck.Proofs.Json.RoundTrip
import SfcCheck.Proofs.Json.Strings
import SfcCheck.Proofs.ModelCache.Transparent
import SfcCheck.Proofs.Region.Order
import SfcCheck.Proofs.Run.ExitCode
import SfcCheck.Proofs.Session.Answering
import SfcCheck.Proofs.Session.Calling
import SfcCheck.Proofs.Session.Documents
import SfcCheck.Proofs.Session.Entering
import SfcCheck.Proofs.Session.Failure
import SfcCheck.Proofs.Session.Moves
import SfcCheck.Proofs.Session.Protocol
import SfcCheck.Proofs.Session.Publications
import SfcCheck.Proofs.Session.Reading
import SfcCheck.Proofs.Session.Requests
import SfcCheck.Proofs.Session.Restart
import SfcCheck.Proofs.Session.Steps
import SfcCheck.Proofs.Session.Stopping
import SfcCheck.Proofs.Session.Tidy
import SfcCheck.Proofs.Session.Transcript
import SfcCheck.Proofs.Session.Waiting
import SfcCheck.Proofs.Validation.Quiet
import SfcCheck.Proofs.Validation.Regions
import SfcCheck.Proofs.Wire.Body
import SfcCheck.Proofs.Wire.Frame
import SfcCheck.Proofs.Wire.Stream
import SfcCheck.Recording
import SfcCheck.Region
import SfcCheck.Region.Attribute
import SfcCheck.Release
import SfcCheck.Run
import SfcCheck.ScriptTag
import SfcCheck.Server.Basic
import SfcCheck.Server.Error
import SfcCheck.Server.Script
import SfcCheck.Session.Basic
import SfcCheck.Session.Calls
import SfcCheck.Session.Waits
import SfcCheck.Setting
import SfcCheck.Settings.Basic
import SfcCheck.Settings.Sources
import SfcCheck.Source
import SfcCheck.Table
import SfcCheck.Text.Blank
import SfcCheck.Text.DecimalDigit
import SfcCheck.Text.Encoding
import SfcCheck.Text.LowerCase
import SfcCheck.Text.Printable
import SfcCheck.Text.Quoted
import SfcCheck.Text.Ranges
import SfcCheck.Text.Similarity
import SfcCheck.Text.Terminal
import SfcCheck.Text.WordChar
import SfcCheck.Toml.Basic
import SfcCheck.Toml.Parser
import SfcCheck.Toml.Scalar
import SfcCheck.Validation
import SfcCheck.Wire
import SfcCheck.Words
import SfcCheck.Workspace
import SfcCheck.Proofs.Region.Attributes
import SfcCheck.Proofs.Region.Tags
import SfcCheck.Proofs.Region.Contents
import SfcCheck.Proofs.Region.Components
import SfcCheck.Proofs.Region.Asides
import SfcCheck.Proofs.Session.Keeping
import SfcCheck.Proofs.Run.Passing
import SfcCheck.Proofs.Session.Hanging
import SfcCheck.Proofs.Run.Lifecycle
import SfcCheck.Proofs.Source.Places
import SfcCheck.Proofs.Source.Selection
import SfcCheck.Proofs.Results
import SfcCheck.Proofs.Region.Opening
import SfcCheck.Proofs.Source.ScriptTags
import SfcCheck.Proofs.Frame.Room
import SfcCheck.Proofs.Validation.Batch
import SfcCheck.Proofs.Run.Openings
import SfcCheck.Proofs.Json.Scalars
import SfcCheck.Proofs.Json.Grammar
import SfcCheck.Proofs.Json.Commas
import SfcCheck.Proofs.Json.Relaxed
import SfcCheck.Proofs.Settings.Nearest
import SfcCheck.Proofs.Settings.Precedence
import SfcCheck.Proofs.Settings.Readings
import SfcCheck.Proofs.ModelCache.Turnover
import SfcCheck.Proofs.ModelCache.Recency
import SfcCheck.Proofs.ModelCache.Clocks
import SfcCheck.Proofs.Region.Quoting
import SfcCheck.Proofs.Frame.Rows
import SfcCheck.Proofs.Frame.Alignment
import SfcCheck.Proofs.Wire.Header
import SfcCheck.Proofs.Wire.Outcomes
import SfcCheck.Proofs.Text.Utf8
import SfcCheck.Proofs.Wire.Foreign
import SfcCheck.Proofs.Settings.Validity
import SfcCheck.Proofs.Source.Overwrite
import SfcCheck.Proofs.Settings.Ignored
import SfcCheck.Proofs.Region.Kinds
