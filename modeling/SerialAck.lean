import SerialAck.Main
import SerialAck.Program.Rehearsal
import SerialAck.Server.Lifecycle
import SerialAck.Settings.Files
import SerialAck.Proofs.Session.Calls
import SerialAck.Proofs.Session.Trace
import SerialAck.Proofs.Session.Account
import SerialAck.Proofs.Session.Feed
import SerialAck.Proofs.Session.Report
import SerialAck.Proofs.Session.Bytes
import SerialAck.Proofs.Session.Blank
import SerialAck.Proofs.Session.Chunks
import SerialAck.Proofs.Session.Pause
import SerialAck.Proofs.Server.Lives
import SerialAck.Proofs.Server.Serial
import SerialAck.Proofs.Server.Isolation
import SerialAck.Proofs.Server.Driven
import SerialAck.Proofs.Text.Utf8
import SerialAck.Proofs.Document.Distinct
import SerialAck.Proofs.Settings.Choices
import SerialAck.Proofs.Settings.FileLayer
import SerialAck.Proofs.Settings.Precedence
import SerialAck.Proofs.Settings.Fit
import SerialAck.Proofs.Settings.Failure
import SerialAck.Proofs.Document.Spelled
import SerialAck.Proofs.Number.Numeral
import SerialAck.Proofs.Document.Written
import SerialAck.Proofs.Settings.Words
import SerialAck.Proofs.Settings.Layout
import SerialAck.Proofs.Settings.ModeNames
import SerialAck.Proofs.Settings.Agreement
import SerialAck.Proofs.Session.Usage
import SerialAck.Proofs.Session.Faults
import SerialAck.Proofs.Session.IdleLimit
import SerialAck.Proofs.Session.LongerLimit
import SerialAck.Proofs.Session.Blocks
import SerialAck.Proofs.Session.SlowWrites
import SerialAck.Proofs.Session.AfterTerminator
import SerialAck.Proofs.Session.SingleBytes
import SerialAck.Proofs.Session.Ending
import SerialAck.Proofs.Text.Escape
import SerialAck.Proofs.Session.Transcript
import SerialAck.Proofs.Settings.Values
import SerialAck.Proofs.Settings.Revision
import SerialAck.Proofs.Settings.Numbers
import SerialAck.Proofs.Settings.Meaning
import SerialAck.Proofs.Settings.Spellings
import SerialAck.Proofs.Text.Lossy
import SerialAck.Proofs.Session.ChunkLog
import SerialAck.Proofs.Number.Rounding
import SerialAck.Proofs.Number.Decimal
import SerialAck.Proofs.Session.LimitTold
import SerialAck.Proofs.Address.Extension
import SerialAck.Proofs.Address.RoundTrip
import SerialAck.Proofs.Server.BindMessage
