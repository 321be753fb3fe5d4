import Vaduno.Guard.Result

/-! The spend firewall before an agent's tools: a pending tool call becomes an intent, the guard
authorizes it or not, and what the tool did is reported back under the intent's id. -/
namespace Vaduno.Agent
open Ecma Guard

/-- What a host hands over as a tool's input or response, as a traversal meets it: a reference back
to an object that it is inside of is `circular`. -/
inductive ToolValue
  | undefined
  | null
  | boolean (b : Bool)
  | number (n : Number)
  | bigint (n : ℤ)
  | string (s : JsString)
  | function
  | symbol
  | circular
  | array (items : List ToolValue)
  | object (props : List (JsString × ToolValue))

structure ToolCall where
  toolName : JsString
  input : ToolValue

inductive SpendDecision
  | notAPayment
  | allow (intentId : JsString) (mandateId : Option JsString)
  | deny (code reason : JsString)

def replayReason (intentId : JsString) : OriginalStatus → PolicyReason
  | .executed => ⟨"ALREADY_EXECUTED",
      "intent " ++ intentId ++ " was already paid; the tool was not run again"⟩
  | .failed => ⟨"ALREADY_ATTEMPTED", "intent " ++ intentId ++
      " was already attempted and failed; retry with a NEW intent id rather than reusing this one"⟩
  | .unresolved => ⟨"INTENT_UNRESOLVED", "intent " ++ intentId ++
      " is already outstanding and its outcome is unknown; reconcile it before retrying, " ++
      "and use a new intent id"⟩

/-- What the operator configures for a call that cannot be turned into an intent, if anything. -/
abbrev OnResolveError := Option (Thrown → ToolCall → Throwing SpendDecision)

/-- An unresolvable tool call is an unknown spend. -/
def denyUnresolved (err : Thrown) : Throwing SpendDecision :=
  return .deny "INTENT_RESOLVE_FAILED"
    ("could not determine what this tool would spend: " ++ (← errText err))

/-- The denial that a result comes to, by its first reason if it has one. -/
def denyFor (reasons : List PolicyReason) (statusName status : JsString) : SpendDecision :=
  let first := reasons.head?
  .deny ((first.map PolicyReason.code).getD statusName)
    ((first.map PolicyReason.message).getD ("guard returned " ++ status))

/-- The decision for a call: `resolved` is what the operator's `resolve` came to, and `authorized`
what the guard answered for the intent. -/
def decideCall (onResolveError : OnResolveError) (call : ToolCall)
    (resolved : Throwing (Option PaymentIntent)) (authorized : PaymentIntent → Throwing GuardResult) :
    Throwing SpendDecision :=
  match resolved with
  | .error err =>
    match onResolveError with
    | some handler => handler err call
    | none => denyUnresolved err
  | .ok none => .ok .notAPayment
  | .ok (some intent) => do
    match ← authorized intent with
    | .authorized intentId _ mandateId =>
      return .allow intentId (mandateId.filter fun id => !id.isEmpty)
    | .replayed intentId _ original =>
      let reason := replayReason intentId original.status
      return .deny reason.code reason.message
    | .executed _ policyResult _ _ => return denyFor policyResult.reasons "EXECUTED" "executed"
    | .denied _ policyResult => return denyFor policyResult.reasons "DENIED" "denied"
    | .approvalRejected _ policyResult =>
      return denyFor policyResult.reasons "APPROVAL_REJECTED" "approval_rejected"
    | .failed _ policyResult _ => return denyFor policyResult.reasons "FAILED" "failed"

/-- A call is allowed on the guard's authorization of its intent, or because it has none and the
operator says so. -/
theorem decideCall_allow {onResolveError : OnResolveError} {call : ToolCall}
    {resolved : Throwing (Option PaymentIntent)} {authorized : PaymentIntent → Throwing GuardResult}
    {intentId : JsString} {mandateId : Option JsString}
    (allowed : decideCall onResolveError call resolved authorized = .ok (.allow intentId mandateId)) :
    (∃ intent policyResult authorizing, resolved = .ok (some intent) ∧
      authorized intent = .ok (.authorized intentId policyResult authorizing) ∧
        mandateId = authorizing.filter fun id => !id.isEmpty) ∨
    ∃ err handler, resolved = .error err ∧ onResolveError = some handler ∧
      handler err call = .ok (.allow intentId mandateId) := by
  unfold decideCall at allowed
  split at allowed
  · rename_i err
    split at allowed
    · rename_i handler
      exact .inr ⟨err, handler, rfl, rfl, allowed⟩
    · unfold denyUnresolved at allowed
      cases text : errText err with
      | error thrown =>
        rw [text] at allowed
        cases allowed
      | ok text' =>
        rw [text] at allowed
        cases allowed
  · cases allowed
  · rename_i intent
    left
    cases answered : authorized intent with
    | error thrown =>
      rw [answered] at allowed
      cases allowed
    | ok result =>
      rw [answered, ok_bind] at allowed
      cases result with
      | authorized intentId' policyResult authorizing =>
        cases allowed
        exact ⟨intent, policyResult, authorizing, rfl, answered, rfl⟩
      | executed => cases allowed
      | denied => cases allowed
      | approvalRejected => cases allowed
      | failed => cases allowed
      | replayed => cases allowed

/-! ### Settling -/

/-- What the host reports of a call. -/
structure SpendOutcome where
  ok : Bool
  error : Option JsString

inductive SettleStatus
  | executed
  | failed
  deriving DecidableEq

/-- A call of the guard's `settle`. -/
structure SettleCall where
  intentId : JsString
  status : SettleStatus
  error : Option JsString
  mandateId : Option JsString
  deriving DecidableEq

def settled (intentId : JsString) (outcome : SpendOutcome) (mandateId : Option JsString) :
    SettleCall where
  intentId := intentId
  status := if outcome.ok then .executed else .failed
  error := outcome.error
  mandateId := mandateId

end Vaduno.Agent
