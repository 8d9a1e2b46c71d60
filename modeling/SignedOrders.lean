import SignedOrders.Amount
import SignedOrders.Asset
import SignedOrders.Binary64.Basic
import SignedOrders.Binary64.Shortest
import SignedOrders.Canonical
import SignedOrders.Catalog
import SignedOrders.Curve
import SignedOrders.Decimal.Arithmetic
import SignedOrders.Decimal.Basic
import SignedOrders.Decimal.Printer
import SignedOrders.Decimal.Reader
import SignedOrders.Decimal.Rounding
import SignedOrders.Failure
import SignedOrders.FillOrder
import SignedOrders.Hash.Hmac
import SignedOrders.Hash.Keccak256
import SignedOrders.Hash.Sha256
import SignedOrders.Instant.Basic
import SignedOrders.Instant.Calendar
import SignedOrders.Instant.Reader
import SignedOrders.Intake.Checked
import SignedOrders.Intake.Integer
import SignedOrders.Intake.Issue
import SignedOrders.Intake.Payload
import SignedOrders.Intake.Request
import SignedOrders.Intake.Scalar
import SignedOrders.Intake.Settings
import SignedOrders.Journal
import SignedOrders.Json.Limits
import SignedOrders.Json.Printer
import SignedOrders.Json.Reader
import SignedOrders.Json.Value
import SignedOrders.Key
import SignedOrders.Market
import SignedOrders.Mutation
import SignedOrders.Nonce
import SignedOrders.Octets
import SignedOrders.Order.Limit
import SignedOrders.Order.Market
import SignedOrders.Payload
import SignedOrders.Price
import SignedOrders.Proofs.Canonical
import SignedOrders.Proofs.Digits
import SignedOrders.Proofs.Json.Reading
import SignedOrders.Proofs.Json.Sorted
import SignedOrders.Proofs.Json.Texts
import SignedOrders.Proofs.Payload
import SignedOrders.Proofs.Record
import SignedOrders.Proofs.Tasks.Course
import SignedOrders.Proofs.Tasks.Ensures
import SignedOrders.Request
import SignedOrders.Secp256k1.Curve
import SignedOrders.Secp256k1.PublicKey
import SignedOrders.Secp256k1.Signature
import SignedOrders.Session.Build
import SignedOrders.Session.Operation
import SignedOrders.Session.Pools
import SignedOrders.Session.State
import SignedOrders.Settings
import SignedOrders.Signer.Basic
import SignedOrders.Signer.Local
import SignedOrders.Signer.Rehearsal
import SignedOrders.Tasks.Machine
import SignedOrders.Tasks.Plan
import SignedOrders.Text.Blank
import SignedOrders.Text.CaseTable
import SignedOrders.Text.CharRange
import SignedOrders.Text.Digit
import SignedOrders.Text.Lowercase
import SignedOrders.Text.Pieces
import SignedOrders.Text.Printable
import SignedOrders.Text.Quoted
import SignedOrders.Proofs.Naming
import SignedOrders.Proofs.Failure
import SignedOrders.Proofs.Session.Build
import SignedOrders.Proofs.Session.Posted
import SignedOrders.Proofs.Session.ChainSignatures
import SignedOrders.Proofs.Decimal.Value
import SignedOrders.Proofs.Decimal.Arithmetic
import SignedOrders.Proofs.Decimal.Literal
import SignedOrders.Proofs.Decimal.Reach
import SignedOrders.Proofs.Amount
import SignedOrders.Proofs.FillOrder
import SignedOrders.Proofs.Key
import SignedOrders.Proofs.Order
import SignedOrders.Proofs.Overreach
import SignedOrders.Proofs.Representable
import SignedOrders.Proofs.Nonce
import SignedOrders.Proofs.FillOrder.Injective
import SignedOrders.Proofs.Session.Pools
import SignedOrders.Proofs.Session.Consumed
import SignedOrders.Proofs.Session.Commit
import SignedOrders.Proofs.Session.History
import SignedOrders.Proofs.Tasks.Alone
import SignedOrders.Proofs.Tasks.Moves
import SignedOrders.Proofs.Tasks.Scene
import SignedOrders.Proofs.Tasks.Stretch
import SignedOrders.Proofs.Tasks.Steps
import SignedOrders.Proofs.Tasks.Changes
import SignedOrders.Proofs.Tasks.Lock
import SignedOrders.Proofs.Tasks.Turnstile
import SignedOrders.Proofs.Tasks.Awake
import SignedOrders.Proofs.Tasks.Alert
import SignedOrders.Proofs.Tasks.Wakeup
import SignedOrders.Proofs.Tasks.Rest
import SignedOrders.Proofs.Tasks.WritesOnce
import SignedOrders.Proofs.Tasks.Asking
import SignedOrders.Proofs.Tasks.Prompt
import SignedOrders.Proofs.Session.Schedule
import SignedOrders.Proofs.Session.CommitOnce
import SignedOrders.Proofs.Session.PoolInvariant
import SignedOrders.Proofs.Session.CommitEffect
import SignedOrders.Proofs.Session.Expansion
import SignedOrders.Proofs.Session.Refusals
import SignedOrders.Proofs.Session.Outcome
import SignedOrders.Proofs.Catalog
import SignedOrders.Proofs.Separator
import SignedOrders.Proofs.Session.OrderNonces
import SignedOrders.Proofs.Tasks.Determinate
import SignedOrders.Proofs.Session.Pointwise
import SignedOrders.Proofs.Session.Updates
import SignedOrders.Proofs.Session.Traceless
import SignedOrders.Proofs.Session.Unheld
import SignedOrders.Proofs.Decimal.Nearest
import SignedOrders.Proofs.Price
import SignedOrders.Proofs.Cost
import SignedOrders.Proofs.Query.Tokens
import SignedOrders.Proofs.Query.Document
import SignedOrders.Proofs.Query.Batch
import SignedOrders.Proofs.Inverted
import SignedOrders.Proofs.Json.Alike
import SignedOrders.Proofs.Json.Limits
import SignedOrders.Proofs.Json.Nesting
import SignedOrders.Proofs.Canonical.Unambiguous
import SignedOrders.Proofs.Intake.ReadBack
import SignedOrders.Proofs.Tasks.Unhurried
import SignedOrders.Proofs.Tasks.Line
import SignedOrders.Proofs.Tasks.Demands
import SignedOrders.Proofs.Tasks.Arrival
import SignedOrders.Proofs.Instant.Calendar
import SignedOrders.Proofs.Instant.Stamp
import SignedOrders.Proofs.Instant.Deadline
import SignedOrders.Proofs.Points
import SignedOrders.Proofs.Hexadecimal
import SignedOrders.Proofs.Secp256k1.Prime
import SignedOrders.Proofs.Secp256k1.Root
import SignedOrders.Proofs.Key.Encodings
import SignedOrders.Proofs.Key.PointsOnly
import SignedOrders.Proofs.Signer.Transparent
