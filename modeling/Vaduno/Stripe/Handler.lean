import Vaduno.Async.Refine
import Vaduno.Stripe.Intent

/-! The handler of a card's webhook. The guard decides an authorization with an executor that does nothing, since the
money moves with the answer; one timer bounds everything that a delivery waits for, and deliveries of one
authorization wait for the one that came first. The guard's call goes on when it is not waited for any more. -/
namespace Vaduno.Stripe
open Ecma Policy Guard

structure StripeHandlerResponse where
  status : ℕ
  body : JsString
  headers : List (JsString × JsString)

structure DecisionRecord where
  response : StripeHandlerResponse
  decidedAt : JsString

structure StripeEvent where
  type : JsString
  object : StripeAuthorization

structure StripeAuthorizationHandlerOptions extends AuthorizationToIntentOptions where
  guard : VadunoGuard
  apiVersion : JsString
  decisionTimeoutMs : Option Number

def authRequest : JsString := "issuing_authorization.request"

def received : StripeHandlerResponse :=
  ⟨200, "\x7b\"received\":true\x7d", [(encode "Content-Type", encode "application/json")]⟩

/-- What was decided, as it is answered and reported. -/
structure Verdict where
  approved : Bool
  status : JsString
  reasons : List PolicyReason
  auditDegraded : Bool

def respond (opts : StripeAuthorizationHandlerOptions) (verdict : Verdict) (authId : JsString) :
    StripeHandlerResponse where
  status := 200
  headers := [(encode "Content-Type", encode "application/json"), (encode "Stripe-Version", opts.apiVersion)]
  body := "\x7b\"approved\":" ++ (if verdict.approved then encode "true" else encode "false") ++
    ",\"metadata\":\x7b\"vaduno_intent\":" ++ quote authId ++ ",\"vaduno_decision\":" ++ quote verdict.status ++
    ",\"vaduno_reasons\":" ++ quote (joinComma ((verdict.reasons.map (·.code)).take 5)) ++ "\x7d\x7d"

/-- The status of a result, and the reasons of those that carry some. -/
def statusOf : GuardResult → JsString × List PolicyReason
  | .executed _ policyResult .. => ("executed", policyResult.reasons)
  | .authorized _ policyResult _ => ("authorized", policyResult.reasons)
  | .denied _ policyResult => ("denied", policyResult.reasons)
  | .approvalRejected _ policyResult => ("approval_rejected", policyResult.reasons)
  | .failed _ policyResult _ => ("failed", policyResult.reasons)
  | .replayed .. => ("replayed", [])

def isExecuted : GuardResult → Bool
  | .executed .. => true
  | _ => false

def isDegraded : GuardResult → Bool
  | .executed _ _ _ auditDegraded => auditDegraded
  | _ => false

/-- What a race against the deadline comes to. A call that is rejected counts as one that took too long. -/
def verdictOf (opts : StripeAuthorizationHandlerOptions) : Option GuardResult → Verdict
  | none => ⟨false, "failed", [⟨"DECISION_TIMEOUT",
      encode "no decision within " ++ (opts.decisionTimeoutMs.getD 1300).toText ++ "ms"⟩], false⟩
  | some result => ⟨isExecuted result, (statusOf result).1, (statusOf result).2, isDegraded result⟩

/-- The executor moves nothing, and fails once the timer has fired. -/
def executor (expired : Bool) : Throwing JsValue :=
  if expired then .error (.error "decision deadline exceeded") else .ok (.object [("approved", .boolean true)])

/-! ### The world of a delivery -/

inductive StripeOp
  /-- What the guard's call asks for. -/
  | guard (op : Op)
  | armDeadline
  | clearDeadline
  /-- `deadline.race(store.get(authId).catch(() => null))`. -/
  | readStore (authId : JsString)
  /-- The decision in flight for an authorization, which is the caller's own from here on where there is none. -/
  | joinInflight (authId : JsString)
  /-- The decision of another delivery is awaited. -/
  | existing (delivery : ℕ)
  /-- `now().toISOString()`. -/
  | nowIso
  /-- The guard is called, and goes on by itself. -/
  | execute (intent : StripeIntent)
  /-- The race of the guard's call against the deadline, `none` where the deadline has won. -/
  | race
  /-- `deadline.race(store.set(authId, record).catch(() => undefined))`. -/
  | writeStore (authId : JsString) (record : DecisionRecord)
  | onDecision (authId : JsString) (verdict : Verdict)
  /-- The promise of the decision settles. -/
  | decided (answer : Throwing StripeHandlerResponse)
  /-- `inflight.delete(authId)`. -/
  | retire (authId : JsString)
  /-- The guard's call begins. -/
  | called
  /-- It settles. -/
  | settled (result : Throwing GuardResult)
  /-- The timer fires. -/
  | expire

@[reducible] def StripeOp.Answer : StripeOp → Type
  | guard op => op.Answer
  | readStore _ => Option DecisionRecord
  | joinInflight _ => Option ℕ
  | existing _ => Throwing StripeHandlerResponse
  | nowIso => Throwing JsString
  | race => Option GuardResult
  | called => StripeIntent
  | _ => Unit

abbrev StripeProgram : Type → Type := Async StripeOp.Answer Thrown

namespace StripeProgram

abbrev ask (op : StripeOp) : StripeProgram op.Answer := Async.perform op

def orThrow (answered : Throwing α) : StripeProgram α := Async.settled answered

end StripeProgram

open StripeProgram

section Handler
variable (platform : Platform) (opts : StripeAuthorizationHandlerOptions)

def authorizationToIntent (auth : StripeAuthorization) : StripeProgram StripeIntent := do
  let agentId ← orThrow (agentIdOf opts.toAuthorizationToIntentOptions auth)
  let requestedAt ← orThrow (← ask .nowIso)
  let mandateId ← orThrow (mandateIdOf opts.toAuthorizationToIntentOptions auth)
  return {
    payment := stripePayment platform opts.toAuthorizationToIntentOptions auth agentId mandateId
    merchantName := (merchantDataOf auth).name.filter (· ≠ [])
    requestedAt
    metadata := metadataOf auth }

/-- The guard's verdict, within the deadline. -/
def judge (auth : StripeAuthorization) : StripeProgram Verdict := do
  let intent ← authorizationToIntent platform opts auth
  ask (.execute intent)
  return verdictOf opts (← ask .race)

def adapterError (err : Thrown) : StripeProgram Verdict := do
  return ⟨false, "failed", [⟨"STRIPE_ADAPTER_ERROR", ← orThrow (errMsg err)⟩], false⟩

def decide (auth : StripeAuthorization) : StripeProgram StripeHandlerResponse := do
  let verdict ← tryCatch (judge platform opts auth) adapterError
  let response := respond opts verdict auth.id
  let decidedAt ← orThrow (← ask .nowIso)
  ask (.writeStore auth.id ⟨response, decidedAt⟩)
  ask (.onDecision auth.id verdict)
  return response

/-- What a delivery returns: its own answer, or the promise of another one's. -/
inductive Answered
  | ready (response : StripeHandlerResponse)
  | existing (delivery : ℕ)

/-- The first delivery of an authorization decides, and is in flight meanwhile. -/
def decideInflight (auth : StripeAuthorization) : StripeProgram Answered := do
  let answer ← Async.outcomeOf (decide platform opts auth)
  ask (.decided answer)
  ask (.retire auth.id)
  return .ready (← orThrow answer)

/-- Deliveries of one authorization at the same time are one decision. -/
def singleFlight (auth : StripeAuthorization) : StripeProgram Answered := do
  match ← ask (.joinInflight auth.id) with
  | some delivery => return .existing delivery
  | none => decideInflight platform opts auth

def answerRequest (auth : StripeAuthorization) : StripeProgram Answered := do
  match ← ask (.readStore auth.id) with
  | some record => return .ready record.response
  | none => singleFlight platform opts auth

def awaitAnswer : Answered → StripeProgram StripeHandlerResponse
  | .ready response => return response
  | .existing delivery => do
    let answer ← ask (.existing delivery)
    orThrow answer

/-- A delivery that waits for another one's decision gives up its own deadline. -/
def handleRequest (auth : StripeAuthorization) : StripeProgram StripeHandlerResponse := do
  awaitAnswer (← Async.bracket .armDeadline .clearDeadline (answerRequest platform opts auth))

/-- `event` is what the signature's verification comes to. -/
def handle (event : Throwing StripeEvent) : StripeProgram StripeHandlerResponse :=
  match event with
  | .error err => do
    return ⟨400, encode "signature verification failed: " ++ (← orThrow (errMsg err)), []⟩
  | .ok event => if event.type ≠ authRequest then return received else handleRequest platform opts event.object

/-- One of the guard's operations, asked for in this world. -/
def serve (_ : Unit) (op : Op) : StripeProgram (op.Answer × Unit) := do
  return (← ask (.guard op), ())

/-- The guard's call, from where a delivery makes it. -/
def execution : StripeProgram Unit := do
  let intent ← ask .called
  let (result, _) ← (opts.guard.submit platform .execute intent.submitted).carry serve ()
  ask (.settled result)

end Handler
end Vaduno.Stripe
