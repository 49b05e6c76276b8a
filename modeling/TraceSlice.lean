import TraceSlice.Word
import TraceSlice.Text.Blank
import TraceSlice.Text.Numeral
import TraceSlice.Json.Basic
import TraceSlice.Json.Reader
import TraceSlice.Json.Printer
import TraceSlice.Expr.Token
import TraceSlice.Expr.Eval
import TraceSlice.Arch.Basic
import TraceSlice.Arch.X86
import TraceSlice.Arch.X64
import TraceSlice.Arch.Select
import TraceSlice.Corruption
import TraceSlice.Hook
import TraceSlice.Operand
import TraceSlice.Instruction
import TraceSlice.Backend.Basic
import TraceSlice.Decode.Address
import TraceSlice.Decode.Argument
import TraceSlice.Decode.Effect
import TraceSlice.Decode.Mnemonic
import TraceSlice.Decode.Basic
import TraceSlice.Json.Record
import TraceSlice.Recording.Basic
import TraceSlice.Recording.Format
import TraceSlice.Recording.Replay
import TraceSlice.Backend.Faulty
import TraceSlice.Config
import TraceSlice.Slice.Tracked
import TraceSlice.Slice.Error
import TraceSlice.Slice.Signal
import TraceSlice.Slice.State
import TraceSlice.Session.Basic
import TraceSlice.Session.Track
import TraceSlice.Session.React
import TraceSlice.Session.Walk
import TraceSlice.Session.Crash
import TraceSlice.Session.Triage
import TraceSlice.Session.Request
import TraceSlice.Text.Hidden
import TraceSlice.Text.Quoted
import TraceSlice.Inspect
import TraceSlice.Session.Drive
import TraceSlice.Cli.Options
import TraceSlice.Cli.Run
import TraceSlice.Cli.Directory
import TraceSlice.Main
import TraceSlice.Proofs.Places
import TraceSlice.Proofs.Decoded
import TraceSlice.Proofs.Visit
import TraceSlice.Proofs.Walk
import TraceSlice.Proofs.Request
import TraceSlice.Proofs.Replacement
import TraceSlice.Proofs.DefUse
import TraceSlice.Proofs.Exactness
import TraceSlice.Proofs.Following
import TraceSlice.Proofs.Drive
import TraceSlice.Proofs.Stop
import TraceSlice.Proofs.Course
import TraceSlice.Proofs.Exhaustion
import TraceSlice.Proofs.Interruption
import TraceSlice.Proofs.Contribution
import TraceSlice.Proofs.Forward
import TraceSlice.Proofs.Future
import TraceSlice.Proofs.Seeds
import TraceSlice.Proofs.Monitoring
import TraceSlice.Proofs.Digits
import TraceSlice.Proofs.Grammar
import TraceSlice.Proofs.Tokens
import TraceSlice.Proofs.ViablePrefix
import TraceSlice.Proofs.Aliases
import TraceSlice.Proofs.JsonText
import TraceSlice.Proofs.RecordingText
import TraceSlice.Proofs.Insertion
import TraceSlice.Proofs.Addressing
import TraceSlice.Proofs.Resolution
import TraceSlice.Proofs.References
import TraceSlice.Proofs.AddressSpace
import TraceSlice.Proofs.Faults
import TraceSlice.Proofs.Culprit
import TraceSlice.Proofs.Ignored
import TraceSlice.Proofs.Outcomes
import TraceSlice.Proofs.Prefixes
import TraceSlice.Proofs.Repeating
import TraceSlice.Proofs.FailedCheck
import TraceSlice.Proofs.Atomicity
import TraceSlice.Proofs.Fidelity
import TraceSlice.Proofs.StringForms
import TraceSlice.Proofs.StackSlots
import TraceSlice.Proofs.Peeling
import TraceSlice.Proofs.Targets
import TraceSlice.Proofs.ReadBuffer
import TraceSlice.Proofs.Boundaries
import TraceSlice.Proofs.ByteScan
import TraceSlice.Proofs.ScanTotality
