import Vaduno.Enforce.CapSafety
import Vaduno.Async.Pool
import Vaduno.Mandate.Consume
import Vaduno.Mandate.UseBudget
import Vaduno.Mandate.Limits
import Vaduno.Mandate.Signed
import Vaduno.Mandate.Accepted
import Vaduno.Mandate.PqEncoding
import Vaduno.Enforce.ConsumeStore
import Vaduno.Guard.Course
import Vaduno.Enforce.LimiterSteps
import Vaduno.Transparency.Anchor
import Vaduno.Transparency.ForkSafety
import Vaduno.Revocation.StatusCheck
import Vaduno.Revocation.IndexStability
import Vaduno.Revocation.Forward
import Vaduno.X402.Accept
import Vaduno.Cloudflare.WireSpelling
import Vaduno.Cloudflare.GuardedSigner
import Vaduno.Cloudflare.TimeBounds
import Vaduno.Cloudflare.AuditedRefusals
import Vaduno.Cloudflare.CommittedFields
import Vaduno.Revocation.Flags
import Vaduno.Transparency.NoteText
import Vaduno.Transparency.JsonlRecovery
import Vaduno.Policy.WindowAgreement
import Vaduno.Postgres.Refinement
import Vaduno.Enforce.FileConsumeStore
import Vaduno.Approval.Binding
import Vaduno.Agent.Settlement
import Vaduno.Postgres.FreezeStore
import Vaduno.Transparency.MirrorSafety
import Vaduno.Postgres.StatusBits
import Vaduno.Enforce.MutexSafety
import Vaduno.Transparency.NoteOrder
import Vaduno.Ledger.Canonical
import Vaduno.Ledger.Verify
import Vaduno.Ledger.Injectivity
import Vaduno.Ledger.Accept
import Vaduno.Ledger.Stored
import Vaduno.Transparency.Domains
import Vaduno.Transparency.SplitView
import Vaduno.Enforce.FileMutex
import Vaduno.Approval.Destination
import Vaduno.Policy.Evaluation
import Vaduno.Policy.Networks
import Vaduno.Policy.Merchants
import Vaduno.Policy.Hosts
import Vaduno.Policy.Monotone
import Vaduno.Policy.ShapeAgreement
import Vaduno.Risk.Replay
import Vaduno.Risk.Levers
import Vaduno.Ledger.Head
import Vaduno.Guard.Resolution
import Vaduno.Guard.HistoryAgreement
import Vaduno.Guard.Recovery
import Vaduno.Guard.Denials
import Vaduno.Guard.Decisions
import Vaduno.Guard.Rails
import Vaduno.Guard.Releases
import Vaduno.Guard.Settlements
import Vaduno.Ledger.Linear
import Vaduno.Guard.Launch
import Vaduno.X402.Policed
import Vaduno.Stripe.Approvals
import Vaduno.Stripe.Idempotency
import Vaduno.Guard.Freezes
