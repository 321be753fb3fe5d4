import Vaduno.Policy.Engine

/-! What the guard answers and records: its results, the rows of its evidence, and the denials it
makes itself. -/
namespace Vaduno.Guard
open Ecma Enforce Policy Ledger

inductive OriginalStatus
  | executed
  | failed
  | unresolved
  deriving DecidableEq

/-- What a replay reports of the first attempt. -/
structure OriginalOutcome where
  status : OriginalStatus
  settledAt : Option JsString
  error : Option JsString
  deriving DecidableEq

inductive GuardResult
  | authorized (intentId : JsString) (policyResult : PolicyResult) (mandateId : Option JsString)
  | executed (intentId : JsString) (policyResult : PolicyResult) (value : JsValue)
      (auditDegraded : Bool)
  | denied (intentId : JsString) (policyResult : PolicyResult)
  | approvalRejected (intentId : JsString) (policyResult : PolicyResult)
  | failed (intentId : JsString) (policyResult : PolicyResult) (error : JsString)
  | replayed (intentId : JsString) (mandateId : Option JsString) (original : OriginalOutcome)

def internalDeny (policy : SpendPolicy) (code message : JsString) : PolicyResult :=
  ⟨.deny, [⟨code, message⟩], policy.id, policy.version⟩

def withExtraReason (base : PolicyResult) (code message : JsString) : PolicyResult :=
  { base with decision := .deny, reasons := base.reasons ++ [⟨code, message⟩] }

/-- The message of an error, or the text of anything else; converting to text can throw. -/
def errMsg : Thrown → Throwing JsString
  | .error message => .ok message
  | .value v => v.stringOf

def decisionText : PolicyDecision → JsString
  | .allow => "allow"
  | .deny => "deny"
  | .requireApproval => "require_approval"

def reasonData (r : PolicyReason) : JsValue :=
  .object [("code", .string r.code), ("message", .string r.message)]

def policyResultData (r : PolicyResult) : JsValue :=
  .object [("decision", .string (decisionText r.decision)),
    ("reasons", .array (r.reasons.map reasonData)), ("policyId", .string r.policyId),
    ("policyVersion", .number r.policyVersion)]

/-- The data of a `policy_decision` row. -/
def decisionData (r : PolicyResult) : JsValue := .object [("policyResult", policyResultData r)]

/-- An optional member of a row. -/
def optionalMember (name : JsString) : Option JsString → List (JsString × JsValue)
  | none => []
  | some text => [(name, .string text)]

/-- The money-affecting fields, as they are counted and recorded. -/
structure Recorded where
  amountMinor : Number
  currency : JsString
  merchantId : JsString
  merchantKey : JsString
  rail : JsString
  network : Option JsString

def recordedOf (platform : Platform) (intent : PaymentIntent) : Recorded where
  amountMinor := intent.amount.amountMinor
  currency := intent.amount.currency
  merchantId := intent.merchant.id
  merchantKey := merchantKeyOf platform intent.merchant
  rail := intent.rail
  network := intent.network

def Recorded.members (r : Recorded) : List (JsString × JsValue) :=
  ("amountMinor", .number r.amountMinor) :: ("currency", .string r.currency) ::
    ("merchantId", .string r.merchantId) :: ("merchantKey", .string r.merchantKey) ::
    ("rail", .string r.rail) :: optionalMember "network" r.network

inductive RiskTier
  | low
  | elevated
  | high
  deriving DecidableEq

structure RiskFiredSignal where
  signal : JsString
  detail : JsString

structure RiskAssessment where
  score : Number
  tier : RiskTier
  signals : List RiskFiredSignal
  /-- The anchor, the clock reading and the configuration hash. -/
  provenance : JsValue

/-- Why an intent has no score: it cannot be scored, or the scorer is broken. -/
inductive RiskFailure
  | unscorable (message : JsString)
  | broken (thrown : Thrown)

/-- A scorecard: scoring is a function of the intent, the policy, the ledger and the clock. -/
structure RiskScorecard where
  autoFreezeAtScore : Option Number
  assess : PaymentIntent → SpendPolicy → List Entry → Number → Except RiskFailure RiskAssessment

def signalReason (s : RiskFiredSignal) : PolicyReason := ⟨s.signal, s.detail⟩

/-- A tier tightens a decision and never loosens one. -/
def applyRiskTier (base : PolicyResult) (assessment : RiskAssessment) : PolicyResult :=
  match assessment.tier with
  | .low => base
  | .high => { base with
      decision := .deny
      reasons := base.reasons ++ [⟨"RISK_DENY", "risk score " ++ assessment.score.toText ++
        " reached the deny tier"⟩] ++ assessment.signals.map signalReason }
  | .elevated => { base with
      decision := if base.decision = .deny then .deny else .requireApproval
      reasons := base.reasons ++ [⟨"RISK_STEPUP", "risk score " ++ assessment.score.toText ++
        " reached the step-up tier"⟩] ++ assessment.signals.map signalReason }

def tierText : RiskTier → JsString
  | .low => "low"
  | .elevated => "elevated"
  | .high => "high"

def assessmentData (phase : JsString) (a : RiskAssessment) : JsValue :=
  .object [("phase", .string phase), ("assessment", .object [("score", .number a.score),
    ("tier", .string (tierText a.tier)), ("signals", .array (a.signals.map fun s =>
      .object [("signal", .string s.signal), ("detail", .string s.detail)])),
    ("provenance", a.provenance)])]

end Vaduno.Guard
