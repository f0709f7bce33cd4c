import ClipActions.Main
import ClipActions.Command.Invocation
import ClipActions.Log.Message
import ClipActions.Plugin.Recipe
import ClipActions.Raised
import ClipActions.Proofs.Disk.Nodes
import ClipActions.Proofs.Job.Result
import ClipActions.Proofs.Json.Symbols
import ClipActions.Proofs.Log.EventName
import ClipActions.Proofs.Text.Encoding
import ClipActions.Proofs.Json.Nesting
import ClipActions.Proofs.Host.Frame
import ClipActions.Proofs.Job.Keeps
import ClipActions.Proofs.Log.Delivery
import ClipActions.Proofs.Agent.Requests
import ClipActions.Proofs.Gate.Decision
import ClipActions.Proofs.Model.Calls
import ClipActions.Proofs.History.Append
import ClipActions.Proofs.Run.Course
import ClipActions.Proofs.Run.Egress
import ClipActions.Proofs.Run.Destination
import ClipActions.Proofs.Run.Ending
import ClipActions.Proofs.Run.Keeping
import ClipActions.Proofs.Run.Audit
import ClipActions.Proofs.Run.Agreement
import ClipActions.Proofs.Registry.Building
import ClipActions.Proofs.Text.Decoding
import ClipActions.Proofs.Text.Lines
import ClipActions.Proofs.Json.RoundTrip
import ClipActions.Proofs.Disk.Directories
import ClipActions.Proofs.History.Reading
import ClipActions.Proofs.History.Sequence
import ClipActions.Proofs.Secret.Redaction
import ClipActions.Proofs.Run.Discretion
import ClipActions.Proofs.Command.Reports
import ClipActions.Proofs.Run.Passage
import ClipActions.Proofs.Command.Dispatch
import ClipActions.Proofs.Command.Life
import ClipActions.Proofs.Run.Secrecy
import ClipActions.Proofs.Rerun.Isolation
import ClipActions.Proofs.History.Torn
import ClipActions.Proofs.Rerun.Fidelity
import ClipActions.Proofs.Secret.Stability
import ClipActions.Proofs.Url.Loopback
import ClipActions.Proofs.Run.Escapes
import ClipActions.Proofs.Command.Boundary
import ClipActions.Proofs.Secret.Concealment
import ClipActions.Proofs.Plugin.Isolation
import ClipActions.Proofs.Command.Shortcut
import ClipActions.Proofs.Registry.Construction
import ClipActions.Proofs.History.Lines
import ClipActions.Proofs.Agent.Outcomes
import ClipActions.Proofs.Run.Unkept
import ClipActions.Proofs.Model.Generation
import ClipActions.Proofs.Prompt.Filling
import ClipActions.Proofs.Plugin.Shapes
import ClipActions.Proofs.Log.File
import ClipActions.Proofs.RunId.Uniqueness
import ClipActions.Proofs.Instant.Stamps
import ClipActions.Proofs.Agent.Walk
import ClipActions.Proofs.Log.Records
