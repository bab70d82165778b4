import RelayTale.Basic
import RelayTale.Foundation.EarlyReturn
import RelayTale.Foundation.Text
import RelayTale.Smtp.Result
import RelayTale.Smtp.Client
import RelayTale.Smtp.Soundness
import RelayTale.Delivery.Decision
import RelayTale.Delivery.Outcome
import RelayTale.Foundation.Guard
import RelayTale.Queue.State
import RelayTale.Queue.Rows
import RelayTale.Queue.Transactions
import RelayTale.Queue.System
import RelayTale.Queue.Inversion
import RelayTale.Queue.Runs
import RelayTale.Queue.Coherence
import RelayTale.Queue.Leases
import RelayTale.Queue.Changes
import RelayTale.Queue.Budget
import RelayTale.Queue.Terminal
import RelayTale.Queue.Projection
import RelayTale.Queue.Retransmission
import RelayTale.Queue.Window
import RelayTale.Queue.Failover
import RelayTale.Foundation.Locking
import RelayTale.Queue.Statements
import RelayTale.Queue.Interleaving
import RelayTale.Queue.Fence
import RelayTale.Queue.Race
import RelayTale.Queue.Resolution
import RelayTale.Queue.Disclosure
import RelayTale.Queue.Deadline
import RelayTale.Admission.State
import RelayTale.Foundation.Regions
import RelayTale.Admission.Statements
import RelayTale.Admission.Steps
import RelayTale.Admission.Interleaving
import RelayTale.Admission.Quota
import RelayTale.Admission.Circuit
import RelayTale.Foundation.Composition
import RelayTale.Queue.Ended
import RelayTale.Intake.Request
import RelayTale.Intake.State
import RelayTale.Intake.Statements
import RelayTale.Intake.Steps
import RelayTale.Intake.Effects
import RelayTale.Intake.Interleaving
import RelayTale.Intake.Ledger
import RelayTale.Intake.Capacity
import RelayTale.Intake.Control
import RelayTale.Foundation.Slices
import RelayTale.Resource.Limiter
import RelayTale.Resource.Accounting
import RelayTale.Foundation.Reads
import RelayTale.Smtp.Stream
import RelayTale.Intake.Snapshot
import RelayTale.Foundation.Buffered
import RelayTale.Intake.Ingress
import RelayTale.Admission.Blame
import RelayTale.Encryption.Credentials
import RelayTale.Encryption.Rotation
import RelayTale.Foundation.Json
import RelayTale.Foundation.Encoding
import RelayTale.Recovery.Manifest
import RelayTale.Recovery.Bundle
import RelayTale.Feedback.Evidence
import RelayTale.Feedback.Invalidation
import RelayTale.Webhook.Outbox
import RelayTale.Webhook.Protocol
import RelayTale.Webhook.Leases
import RelayTale.Feedback.Mailbox
import RelayTale.Feedback.Collection
import RelayTale.Delivery.Policy
import RelayTale.Smtp.Course
import RelayTale.Smtp.Storable
import RelayTale.Smtp.Redaction
import RelayTale.Foundation.Calendar
import RelayTale.Foundation.ByteOrder
import RelayTale.Intake.Identity
import RelayTale.Foundation.Heap
import RelayTale.Foundation.Base64
import RelayTale.Foundation.Paging
import RelayTale.Operations.Inventory
import RelayTale.Operations.ArchiveScan
import RelayTale.Operations.ScanCompleteness
import RelayTale.Foundation.Truth
import RelayTale.Operations.Retention
import RelayTale.Dispatch.Claim
import RelayTale.Foundation.Tickets
import RelayTale.Dispatch.Runs
import RelayTale.Dispatch.Fairness
import RelayTale.Feedback.Review
import RelayTale.Server.Connections
import RelayTale.Api.Templates
import RelayTale.Api.Expansion
import RelayTale.Api.Canonical
