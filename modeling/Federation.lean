import Federation.Cipher.Aes
import Federation.Cipher.AesRing
import Federation.Cipher.Basic
import Federation.Cipher.Error
import Federation.Cipher.Gcm
import Federation.Cipher.Key
import Federation.Cipher.Sealed
import Federation.Command.Channel
import Federation.Command.Limits
import Federation.Command.Program
import Federation.Command.Service
import Federation.Command.Tuning
import Federation.Credentials
import Federation.Decimal.Shortest
import Federation.Duration
import Federation.Error
import Federation.Json.Basic
import Federation.Json.Fault
import Federation.Json.Read
import Federation.Json.Text
import Federation.Log.Basic
import Federation.Log.Batch
import Federation.Log.Entry
import Federation.Log.Error
import Federation.Log.Fold
import Federation.Log.Projection
import Federation.Log.Query
import Federation.Log.Tails
import Federation.Proofs.Cipher.Framing
import Federation.Proofs.Cipher.Provision
import Federation.Proofs.Cipher.Recovery
import Federation.Proofs.Cipher.Revealing
import Federation.Proofs.Cipher.Rotation
import Federation.Proofs.Cipher.Sealing
import Federation.Proofs.Cipher.Stored
import Federation.Proofs.Command.Accounts
import Federation.Proofs.Command.Appending
import Federation.Proofs.Command.Atomic
import Federation.Proofs.Command.Attempt
import Federation.Proofs.Command.Board
import Federation.Proofs.Command.Checked
import Federation.Proofs.Command.Contention
import Federation.Proofs.Command.Effect
import Federation.Proofs.Command.Existence
import Federation.Proofs.Command.Grammar
import Federation.Proofs.Command.Invocation
import Federation.Proofs.Command.Isolation
import Federation.Proofs.Command.KindSafety
import Federation.Proofs.Command.Looping
import Federation.Proofs.Command.Provenance
import Federation.Proofs.Command.Rereading
import Federation.Proofs.Command.Retrying
import Federation.Proofs.Command.Secrecy
import Federation.Proofs.Command.Serial
import Federation.Proofs.Command.Trial
import Federation.Proofs.Json.Object
import Federation.Proofs.Json.Origin
import Federation.Proofs.Log.Calls
import Federation.Proofs.Log.Numbering
import Federation.Proofs.Log.Sharing
import Federation.Proofs.Outcome
import Federation.Proofs.Provider.Batches
import Federation.Proofs.Provider.Clients
import Federation.Proofs.Provider.Codec
import Federation.Proofs.Provider.Collapse
import Federation.Proofs.Provider.Convergence
import Federation.Proofs.Provider.Differences
import Federation.Proofs.Provider.Drafts
import Federation.Proofs.Provider.Findings
import Federation.Proofs.Provider.Growth
import Federation.Proofs.Provider.History
import Federation.Proofs.Provider.Inquiry
import Federation.Proofs.Provider.Lawful
import Federation.Proofs.Provider.Life
import Federation.Proofs.Provider.Loading
import Federation.Proofs.Provider.Members
import Federation.Proofs.Provider.Minimal
import Federation.Proofs.Provider.Misreading
import Federation.Proofs.Provider.Opening
import Federation.Proofs.Provider.Payload
import Federation.Proofs.Provider.Reading
import Federation.Proofs.Provider.Replay
import Federation.Proofs.Provider.Standing
import Federation.Proofs.Provider.Validity
import Federation.Proofs.Provider.Views
import Federation.Proofs.Provider.Writing
import Federation.Proofs.Registry.Basic
import Federation.Proofs.Registry.Held
import Federation.Proofs.Registry.Refinement
import Federation.Proofs.Sql.Condition
import Federation.Proofs.Sql.Containment
import Federation.Proofs.Sql.Deadlock
import Federation.Proofs.Sql.LockOrder
import Federation.Proofs.Sql.Placeholders
import Federation.Proofs.Sql.Selection
import Federation.Proofs.Text.Base64
import Federation.Proofs.Text.Spelling
import Federation.Provider.Change
import Federation.Provider.Client
import Federation.Provider.Config
import Federation.Provider.Description
import Federation.Provider.Event
import Federation.Provider.Field
import Federation.Provider.Inspect
import Federation.Provider.Kind
import Federation.Provider.Layout
import Federation.Provider.Owner
import Federation.Provider.Presence
import Federation.Provider.Settings
import Federation.Provider.State
import Federation.Provider.Status
import Federation.Provider.Update
import Federation.Provider.View
import Federation.Record
import Federation.Sql.Select
import Federation.Sql.Table
import Federation.Text.Base64
import Federation.Text.Blank
import Federation.Text.Hex
import Federation.Text.Quoted
import Federation.Text.Unprintable
import Federation.Text.Utf8
import Federation.Text.Uuid
import Federation.Timestamp
