import Vaduno.Guard.Hydrate
import Vaduno.Guard.Resolution

/-! The second phase of a payment that its caller runs. The outcome that the caller reports is recorded with what the
authorization recorded of the payment; and the budget of a payment that failed can be given back. -/
namespace Vaduno.Guard
open Ecma Enforce Policy Ledger Program

/-- What a caller reports of its payment. An error that is no text is rendered as one before it gets here. -/
structure SettleOutcome where
  status : OutcomeStatus
  error : Option JsString
  mandateId : Option JsString

def isTrue : JsValue → Bool
  | .boolean b => b
  | _ => false

/-- A row in which a payment was authorized for its caller to run. -/
def isAuthorization (e : Entry) : Bool :=
  e.type = .executionStarted && isObject e.data && isTrue (member "twoPhase" e.data)

def isSuccessRow (e : Entry) : Bool := isObject e.data && isTrue (member "success" e.data)

section Trail
variable (trail : List Entry)

/-- The current authorization: an id may be authorized again once its budget was given back. -/
def authorizationOf : Option Entry := trail.reverse.find? isAuthorization

def sinceAuthorization : List Entry := (trail.reverse.takeWhile fun e => !isAuthorization e).reverse

/-- A success is a retry of a success only; a failure is a retry of any result. -/
def isRecorded (success : Bool) : Bool :=
  (sinceAuthorization trail).any fun e => e.type = .executionResult && (!success || isSuccessRow e)

end Trail

/-- What the authorization recorded of the payment, where it is what a spend row has to have. -/
def recoveredMembers (authorization : Entry) : List (JsString × JsValue) :=
  let read name := member name authorization.data
  match read "amountMinor", read "currency", read "merchantId", read "rail" with
  | .number amountMinor, .string currency, .string merchantId, .string rail =>
    if amountMinor.isSafeInteger then
      ("amountMinor", .number amountMinor) :: ("currency", .string currency) ::
        ("merchantId", .string merchantId) :: ("rail", .string rail) ::
        (optionalMember "merchantKey" (textOf (read "merchantKey")) ++
          optionalMember "network" (textOf (read "network")))
    else []
  | _, _, _, _ => []

/-- The data of a settlement's row. -/
def settlementData (success : Bool) (error : Option JsString) (authorization : Option Entry) : JsValue :=
  .object (("success", .boolean success) :: ("selfReported", .boolean true) ::
    (optionalMember "error" error ++ (authorization.map recoveredMembers).getD []))

/-- The row that a settlement appends to a trail, unless it is there already. -/
def settlementRow (outcome : SettleOutcome) (trail : List Entry) : Option (JsValue × JsString) :=
  let success := decide (outcome.status = .executed)
  if isRecorded trail success then none
  else
    let authorization := authorizationOf trail
    some (settlementData success outcome.error authorization, (authorization.bind (·.refs.agentId)).getD [])

namespace VadunoGuard
variable (guard : VadunoGuard)

/-- The row is looked for and appended inside the critical section. -/
def recordSettlement (intentId : JsString) (outcome : SettleOutcome) : Program Unit :=
  exclusive .critical do
    -- a failed read must not lose the row
    let trail := (← ask (.ledgerTrail intentId)).toOption.getD []
    match settlementRow outcome trail with
    | none => return ()
    | some (data, agentId) => appendBestEffort .executionResult data ⟨some intentId, some agentId⟩

def commitSettled (intentId : JsString) : OutcomeStatus → Program Unit
  | .executed => commitBestEffort intentId
  | .failed => return ()

def settleMandate (intentId settledAt : JsString) (outcome : SettleOutcome) : Program Unit :=
  if truthy outcome.mandateId then
    guard.settleBestEffort (outcome.mandateId.getD []) intentId ⟨outcome.status, settledAt, outcome.error⟩
  else return ()

def settle (intentId : JsString) (outcome : SettleOutcome) : Program Unit := do
  let settledAt ← nowIso
  commitSettled intentId outcome.status
  guard.settleMandate intentId settledAt outcome
  recordSettlement intentId outcome

/-- For a payment that is known to have moved no money. -/
def releaseSpend (intentId : JsString) : Program Unit := releaseBestEffort intentId

end VadunoGuard
end Vaduno.Guard
