import Vaduno.Runtime

/-! The consuming side of the mandate manager: check and consume in one step of the store, with an
idempotent replay of what an earlier use came to. -/
namespace Vaduno.Mandate
open Ecma Enforce Ledger Program

structure MandateManager where
  /-- Why the signatures of a mandate are not good enough here, or `none` when they are. -/
  signatureProblem : AnyMandate → Option (CheckCode × JsString)
  /-- Whether the manager was given a ledger. -/
  ledger : Bool

inductive ConsumeOutcome
  | consumed (check : MandateCheck) (use : ℕ)
  | rejected (check : MandateCheck)
  /-- Without `digestMatches` the same intent id carries a different payment. -/
  | replayed (claim : UseClaim) (digestMatches : Bool)
  deriving DecidableEq

namespace MandateManager
variable (platform : Platform) (manager : MandateManager)

def checkState (state : MandateState) (intent : PaymentIntent) (uses : Number) :
    Program MandateCheck := do
  match manager.signatureProblem state.mandate with
  | some (code, message) => return .refuse code message
  | none =>
    if state.revoked then return .refuse .revoked "mandate was revoked"
    let nowMs ← ask .now
    Async.settled (checkConstraints platform state.mandate intent uses nowMs)

def unknownMandate (mandateId : JsString) : MandateCheck :=
  .refuse .unknownMandate ("mandate " ++ mandateId ++ " is not registered")

/-- Validation without consumption. -/
def check (mandateId : JsString) (intent : PaymentIntent) : Program MandateCheck := do
  match ← ask (.mandateState mandateId) with
  | none => return unknownMandate mandateId
  | some state => manager.checkState platform state intent state.uses

def appendIfLedger (type : EntryType) (data : JsValue) (intent : PaymentIntent) : Program Unit := do
  if manager.ledger then orThrow (ask (.append type data ⟨some intent.id, some intent.agentId⟩))

/-- What a claim says its payment came to. -/
def originalStatus (claim : UseClaim) : JsString :=
  if claim.status = .settled then
    match claim.outcome with
    | some ⟨.executed, _, _⟩ => "executed"
    | some ⟨.failed, _, _⟩ => "failed"
    | none => "unresolved"
  else "unresolved"

def replayOutcome (mandateId : JsString) (intent : PaymentIntent) (claim : UseClaim)
    (digest : JsString) : Program ConsumeOutcome := do
  let digestMatches := decide (claim.intentDigest = digest)
  manager.appendIfLedger .mandateReplayed (.object [("mandateId", .string mandateId),
    ("useKey", .string claim.useKey), ("digestMatches", .boolean digestMatches),
    ("originalStatus", .string (originalStatus claim))]) intent
  return .replayed claim digestMatches

/-- The claim of a use and what follows from its answer. -/
def consume (mandateId : JsString) (intent : PaymentIntent) (state : MandateState)
    (check : MandateCheck) (digest : JsString) : Program ConsumeOutcome := do
  let maxUses := state.mandate.constraints.maxUses
  let claimedAt ← nowIso
  match ← orThrow (ask (.claimUse ⟨mandateId, intent.id, digest, claimedAt, .pending, none⟩
      maxUses)) with
  | .duplicate existing => manager.replayOutcome mandateId intent existing digest
  | .exhausted used =>
    return .rejected (.refuse .usesExhausted ("mandate already used " ++ natText used ++ "/" ++
      (← Async.settled maxUses.toText) ++ " times"))
  | .winner used =>
    ask (.mirrorUses mandateId used)
    manager.appendIfLedger .mandateConsumed (.object [("mandateId", .string mandateId),
      ("use", .number (used : ℤ)), ("maxUses", maxUses), ("useKey", .string intent.id),
      ("intentDigest", .string digest)]) intent
    return .consumed check used

/-- Atomic check-and-consume with idempotent replay. The replay lookup comes first: the original
decision stands, whatever became of the mandate. -/
def consumeOnce (mandateId : JsString) (intent : PaymentIntent) : Program ConsumeOutcome :=
  exclusive .consume do
    match ← ask (.mandateState mandateId) with
    | none => return .rejected (unknownMandate mandateId)
    | some state =>
      let digest ← Async.settled (intentDigest platform intent)
      match ← orThrow (ask (.getClaim mandateId intent.id)) with
      | some prior => manager.replayOutcome mandateId intent prior digest
      | none =>
        -- the budget is left to the claim, so the uses are not counted here
        let check ← manager.checkState platform state intent 0
        if check.ok then manager.consume mandateId intent state check digest
        else return .rejected check

/-- Records the terminal outcome of a consumed use. -/
def settleUse (mandateId useKey : JsString) (outcome : StoredOutcome) : Program Unit :=
  orThrow (ask (.settleClaim mandateId useKey outcome))

end MandateManager
end Vaduno.Mandate
