import Vaduno.Async.Pool
import Vaduno.Enforce.ConsumeStore
import Vaduno.Mandate.Check

/-! What the guard and its parts ask of the outside: every operation that is awaited, and every read
or write of a field that other calls can change. An operation that can fail answers with what it
threw. -/
namespace Vaduno
open Ecma Enforce Mandate

namespace Ledger

inductive EntryType
  | intentReceived
  | policyDecision
  | approvalRequested
  | approvalResolved
  | mandateIssued
  | mandateConsumed
  | mandateReplayed
  | mandateRevoked
  | mandateUnsuspended
  | mandateIndexAssigned
  | agentRevoked
  | agentRevokePartial
  | agentUnblocked
  | revocationFanout
  | statusListPublished
  | executionStarted
  | executionResult
  | policyUpdated
  | guardFrozen
  | guardUnfrozen
  | riskScored
  deriving DecidableEq

/-- The top-level index of a row: strings that `trailFor` reads. -/
structure Refs where
  intentId : Option JsString
  agentId : Option JsString
  deriving DecidableEq

structure Entry where
  timestamp : JsString
  type : EntryType
  refs : Refs
  data : JsValue

end Ledger

open Ledger

/-- Spend the guard remembers itself, as its in-memory history counts it. -/
structure ExecutedSpend where
  ms : Number
  amountMinor : Number
  currency : JsString
  /-- Absent on rows restored from a ledger that had no such field. -/
  merchantKey : Option JsString
  deriving DecidableEq

structure SpendTotals where
  totalMinor : Number
  count : Number

/-- The queues that serialize: a guard's critical section, and a mandate manager's consumes. -/
inductive Mutex
  | critical
  | consume
  deriving DecidableEq

/-- The signals of a guard that something could not be recorded. -/
inductive Degradation
  | audit
  | limiter
  | freeze
  deriving DecidableEq

structure ApprovalRequest where
  intent : PaymentIntent
  policyResult : PolicyResult
  requestedAt : JsString

/-- A handler's answer: the row the shape inspection makes of it, and its `approved` property, read
as a condition. -/
structure ApprovalResponse where
  recorded : JsValue
  approved : Throwing Bool

inductive RevocationVerdict
  | allowed
  | refused (code message : JsString)

inductive Op
  /-- `this.now().getTime()`. -/
  | now
  /-- `this.now().toISOString()`, which throws on a time outside the calendar. -/
  | nowIso
  | policy
  | frozen
  | hydrated
  | hydrateFailed
  | setFrozen (reason : JsString)
  | degrade (signal : Degradation)
  | executed
  | recordExecuted (spend : ExecutedSpend)
  | enter (mutex : Mutex)
  | leave (mutex : Mutex)
  | append (type : EntryType) (data : JsValue) (refs : Refs)
  | ledgerAll
  | ledgerTrail (intentId : JsString)
  | totalsSince (agentId sinceIso currency : JsString)
  | merchantCountSince (agentId merchantKey sinceIso currency : JsString)
  | reserve (request : ReserveRequest)
  | commitSpend (reservationId : JsString)
  | releaseSpend (reservationId : JsString)
  | mandateState (mandateId : JsString)
  | mirrorUses (mandateId : JsString) (used : ℕ)
  | getClaim (mandateId useKey : JsString)
  | claimUse (claim : UseClaim) (maxUses : JsValue)
  | settleClaim (mandateId useKey : JsString) (outcome : StoredOutcome)
  | requestApproval (request : ApprovalRequest)
  | checkRevocation (intent : PaymentIntent)
  | runExecutor (intent : PaymentIntent)
  /-- The account behind a guarded signer signs a snapshot of typed data. -/
  | innerSign (typedData : JsValue)

@[reducible] def Op.Answer : Op → Type
  | now => Number
  | nowIso => Throwing JsString
  | policy => SpendPolicy
  | frozen => Option JsString
  | hydrated | hydrateFailed => Bool
  | executed => List ExecutedSpend
  | ledgerAll | ledgerTrail _ => Throwing (List Entry)
  | totalsSince .. => Throwing SpendTotals
  | merchantCountSince .. => Throwing Number
  | reserve _ => Throwing ReserveResult
  | mandateState _ => Option MandateState
  | getClaim .. => Throwing (Option UseClaim)
  | claimUse .. => Throwing ClaimResult
  | requestApproval _ => Throwing ApprovalResponse
  | checkRevocation _ => Throwing RevocationVerdict
  | runExecutor _ => Throwing JsValue
  | innerSign _ => Throwing JsString
  | append .. | commitSpend _ | releaseSpend _ | settleClaim .. => Throwing Unit
  | setFrozen _ | degrade _ | recordExecuted _ | enter _ | leave _ | mirrorUses .. => Unit

/-- An asynchronous function of the source. -/
abbrev Program : Type → Type := Async Op.Answer Thrown

namespace Program

/-- An operation that cannot fail. -/
abbrev ask (op : Op) : Program op.Answer := Async.perform op

/-- Awaits an operation that can fail, failing with what it threw. -/
def orThrow (p : Program (Throwing α)) : Program α := do
  Async.settled (← p)

/-- The clock as text. -/
def nowIso : Program JsString := orThrow (ask .nowIso)

/-- What `p` comes to, exceptions included. -/
def outcomeOf (p : Program α) : Program (Throwing α) :=
  tryCatch (Except.ok <$> p) fun thrown => return .error thrown

/-- Runs `p` alone among the holders of a queue. -/
def exclusive (mutex : Mutex) (p : Program α) : Program α := do
  ask (.enter mutex)
  let outcome ← outcomeOf p
  ask (.leave mutex)
  Async.settled outcome

theorem answeredBy_exclusive (answer : (op : Op) → op.Answer) (mutex : Mutex) (p : Program α) :
    (exclusive mutex p).answeredBy answer = p.answeredBy answer := by
  rw [exclusive, Async.answeredBy_bind, Async.answeredBy_perform, ok_bind, Async.answeredBy_bind]
  change Async.answeredBy answer (Async.outcomeOf p) >>= _ = _
  rw [Async.answeredBy_outcomeOf, ok_bind]
  rfl

theorem answeredBy_orThrow (answer : (op : Op) → op.Answer) (p : Program (Throwing α)) :
    (orThrow p).answeredBy answer = p.answeredBy answer >>= id := by
  rw [orThrow, Async.answeredBy_bind]
  rfl

section Meets
open Async
variable {Φ : Type} {M : Monitor Op.Answer Φ}

theorem meets_orThrow {post : Φ → Throwing α → Prop} (p : Program (Throwing α)) (φ : Φ) :
    (orThrow p).Meets M post φ ↔ p.Meets M (fun φ r => post φ (r.bind id)) φ :=
  Async.meets_orThrow p φ

theorem meets_outcomeOf {post : Φ → Throwing (Throwing α) → Prop} (p : Program α) (φ : Φ) :
    (outcomeOf p).Meets M post φ ↔ p.Meets M (fun φ r => post φ (.ok r)) φ :=
  Async.meets_outcomeOf p φ

/-- What `p` comes to is passed on once the queue has been left. -/
theorem meets_exclusive {post : Φ → Throwing α → Prop} (mutex : Mutex) (p : Program α) (φ : Φ) :
    (exclusive mutex p).Meets M post φ ↔
      M.allowed φ (.enter mutex) ∧ ∀ ans φ', M.step φ (.enter mutex) ans φ' →
        p.Meets M (fun φ r => M.allowed φ (.leave mutex) ∧
          ∀ ans φ', M.step φ (.leave mutex) ans φ' → post φ' r) φ' :=
  Async.meets_bracket (.enter mutex) (.leave mutex) p φ

end Meets

section Asking
open Async
variable {kind : Op → Prop}

/-- Whatever a program comes to. -/
abbrev anything : Throwing α → Prop := fun _ => True

theorem ask_asks (asked : kind op) : (ask op).Asks kind anything := ⟨asked, fun _ _ _ => trivial⟩

theorem orThrow_asks {p : Program (Throwing α)} (asks : p.Asks kind anything) :
    (orThrow p).Asks kind anything := (meets_orThrow p ()).mpr asks

theorem bind_asks {post : Throwing β → Prop} {p : Program α} {f : α → Program β}
    (first : p.Asks kind anything) (thrown : ∀ e, post (.error e))
    (rest : ∀ a, (f a).Asks kind post) : (p >>= f).Asks kind post :=
  Meets.bind first (fun _ a _ => rest a) fun _ e _ => thrown e

theorem settled_asks (r : Throwing α) : (Async.settled r : Program α).Asks kind anything := trivial

end Asking
end Program
end Vaduno
