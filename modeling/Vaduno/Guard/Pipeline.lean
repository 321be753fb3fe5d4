import Vaduno.Guard.Result

/-! The decision pipeline behind both `execute()` and `authorize()`: checks and approval outside the
mutex, then the critical section that decides again, reserves, consumes, executes and records. The
critical section is cut where its phases end; each part calls the next. -/
namespace Vaduno.Guard
open Ecma Enforce Mandate Policy Ledger Program

/-- What a guard was constructed with. -/
structure VadunoGuard where
  mandates : Option MandateManager
  requireMandate : Bool
  requireHydration : Bool
  approvalHandler : Bool
  revocationCheck : Bool
  risk : Option RiskScorecard
  usingInMemoryHistory : Bool
  /-- Whether the spend history can attribute spend to a merchant. -/
  countsMerchants : Bool

/-- `execute()` runs the payment itself; `authorize()` stops after the reservation. -/
inductive Mode
  | execute
  | authorize
  deriving DecidableEq

/-- What became of the submitted value before the pipeline: it could not be cloned, its shape could
not be recorded, its id or agent is no string, or it is an intent. `received` is what the trail
records of it. -/
inductive Intake
  | unclonable (intentId agentId : JsString)
  | malformed (intentId agentId : JsString) (received : JsValue) (reasons : List PolicyReason)
  | unidentified (intentId agentId : JsString) (received : JsValue) (offenders : JsString)
  | sound (received : JsValue) (intent : PaymentIntent)

def refsOf (intent : PaymentIntent) : Refs := ⟨some intent.id, some intent.agentId⟩

/-- A hard audit write: a row that cannot be recorded must not be acted on. -/
def append (type : EntryType) (data : JsValue) (refs : Refs) : Program Unit :=
  orThrow (ask (.append type data refs))

def appendBestEffort (type : EntryType) (data : JsValue) (refs : Refs) : Program Unit :=
  tryCatch (append type data refs) fun _ => ask (.degrade .audit)

def commitBestEffort (reservationId : JsString) : Program Unit :=
  tryCatch (orThrow (ask (.commitSpend reservationId))) fun _ => ask (.degrade .limiter)

def releaseBestEffort (reservationId : JsString) : Program Unit :=
  tryCatch (orThrow (ask (.releaseSpend reservationId))) fun _ => ask (.degrade .limiter)

/-- A denial that is recorded if it can be, and stands either way. -/
def denyAudited (refs : Refs) (code message : JsString) : Program GuardResult := do
  let policyResult := internalDeny (← ask .policy) code message
  appendBestEffort .policyDecision (decisionData policyResult) refs
  return .denied (refs.intentId.getD []) policyResult

/-- A denial that must be recorded first. -/
def denyRecorded (intent : PaymentIntent) (policyResult : PolicyResult) : Program GuardResult := do
  append .policyDecision (decisionData policyResult) (refsOf intent)
  return .denied intent.id policyResult

def denyFrozen (intent : PaymentIntent) (reason : JsString) : Program GuardResult :=
  denyAudited (refsOf intent) "GUARD_FROZEN" ("guard is frozen: " ++ reason)

/-- Truthiness of an optional text. -/
def truthy (text : Option JsString) : Bool := text.getD [] ≠ []

namespace VadunoGuard
variable (platform : Platform) (guard : VadunoGuard)

def settleBestEffort (mandateId useKey : JsString) (outcome : StoredOutcome) : Program Unit :=
  match guard.mandates with
  | none => return ()
  | some _ => tryCatch (MandateManager.settleUse mandateId useKey outcome) fun _ => return ()

/-- The emergency stop: the flag flips at once, its record is best effort. -/
def freeze (reason : JsString) (autoFreeze : List (JsString × JsValue)) : Program Unit := do
  ask (.setFrozen reason)
  tryCatch (append .guardFrozen (.object (("reason", .string reason) :: autoFreeze)) ⟨none, none⟩)
    fun _ => ask (.degrade .freeze)

inductive Scored
  | scored (assessment : RiskAssessment)
  | unscorable (message : JsString)

/-- One risk pass: read the ledger, score, append the evidence. -/
def scoreRisk (risk : RiskScorecard) (intent : PaymentIntent) (phase : JsString) :
    Program Scored := do
  match ← ask .ledgerAll with
  | .error err => return .unscorable ("risk history source failed: " ++
      (← Async.settled (errMsg err)) ++ " (fail closed)")
  | .ok entries =>
    let policy ← ask .policy
    let nowMs ← ask .now
    match risk.assess intent policy entries nowMs with
    | .error (.unscorable message) => return .unscorable message
    | .error (.broken thrown) => throw thrown
    | .ok assessment =>
      append .riskScored (assessmentData phase assessment) (refsOf intent)
      return .scored assessment

def denyRiskUnscorable (intent : PaymentIntent) (message : JsString) : Program GuardResult := do
  denyRecorded intent (internalDeny (← ask .policy) "RISK_UNSCORABLE" message)

/-- High-tier deny, with the auto-freeze when the score reaches its threshold. -/
def denyRiskHigh (risk : RiskScorecard) (intent : PaymentIntent) (base : PolicyResult)
    (assessment : RiskAssessment) : Program GuardResult := do
  match risk.autoFreezeAtScore with
  | some atScore =>
    if atScore ≤ assessment.score then
      if (← ask .frozen).isNone then
        freeze ("auto-freeze: risk score " ++ assessment.score.toText ++ " >= " ++ atScore.toText)
          [("autoFreeze", .object [("intentId", .string intent.id),
            ("score", .number assessment.score), ("atScore", .number atScore)])]
  | none => pure ()
  denyRecorded intent (applyRiskTier base assessment)

/-- What a duplicate id without a mandate is told: a committed reservation ran to completion, a
reserved one may have. -/
def replayedResult (intent : PaymentIntent) (state : Option ReservationState) :
    Program GuardResult := do
  let mandateId := if truthy intent.mandateId then intent.mandateId else none
  match state with
  | some .committed =>
    return .replayed intent.id mandateId ⟨.executed, some (← nowIso), none⟩
  | _ => return .replayed intent.id mandateId ⟨.unresolved, none, none⟩

/-- What a claimed use says of the first attempt. One that was never settled may have moved money. -/
def originalOf (claim : UseClaim) : OriginalOutcome :=
  match claim.status, claim.outcome with
  | .settled, some outcome =>
    ⟨match outcome.status with | .executed => .executed | .failed => .failed,
      some outcome.settledAt, outcome.error⟩
  | _, _ => ⟨.unresolved, none, none⟩

/-- Gives back a reservation this call took itself; somebody else's may be real spend. -/
def releaseIfOurs (ours : Option JsString) : Program Unit :=
  if truthy ours then releaseBestEffort (ours.getD []) else return ()

/-- Settles a consumed use, so that a retry replays a terminal outcome. -/
def settleConsumed (consumed : Option JsString) (intent : PaymentIntent)
    (outcome : JsString → StoredOutcome) : Program Unit := do
  match consumed with
  | none => return ()
  | some mandateId => guard.settleBestEffort mandateId intent.id (outcome (← nowIso))

def settleFailed (consumed : Option JsString) (intent : PaymentIntent) (error : JsString) :
    Program Unit :=
  guard.settleConsumed consumed intent fun settledAt => ⟨.failed, settledAt, some error⟩

/-- The executor ran and threw: the reservation stays, since the money may have moved. -/
def recordFailure (intent : PaymentIntent) (finalStance : PolicyResult) (recorded : Recorded)
    (consumed : Option JsString) (err : Thrown) : Program GuardResult := do
  let message ← Async.settled (errMsg err)
  appendBestEffort .executionResult
    (.object (("success", .boolean false) :: ("error", .string message) :: recorded.members))
    (refsOf intent)
  guard.settleFailed consumed intent message
  return .failed intent.id finalStance message

/-- Recording must not reclassify an executed charge: a failed row is a flag on the result. -/
def reportExecuted (intent : PaymentIntent) (finalStance : PolicyResult) (recorded : Recorded)
    (value : JsValue) : Program GuardResult := do
  match ← ask (.append .executionResult
      (.object (("success", .boolean true) :: recorded.members)) (refsOf intent)) with
  | .ok _ => return .executed intent.id finalStance value false
  | .error _ =>
    ask (.degrade .audit)
    return .executed intent.id finalStance value true

/-- The charge happened: the reservation is committed before anything else can fail. -/
def recordSuccess (intent : PaymentIntent) (finalStance : PolicyResult) (recorded : Recorded)
    (reservationId : JsString) (consumed : Option JsString) (value : JsValue) :
    Program GuardResult := do
  commitBestEffort reservationId
  if guard.usingInMemoryHistory then
    let nowMs ← ask .now
    ask (.recordExecuted ⟨nowMs, recorded.amountMinor, recorded.currency,
      some recorded.merchantKey⟩)
  guard.settleConsumed consumed intent fun settledAt => ⟨.executed, settledAt, none⟩
  reportExecuted intent finalStance recorded value

def executeStage (intent : PaymentIntent) (finalStance : PolicyResult) (recorded : Recorded)
    (reservationId : JsString) (consumed : Option JsString) : Program GuardResult := do
  append .executionStarted (.object [("rail", .string recorded.rail)]) (refsOf intent)
  match ← ask (.runExecutor intent) with
  | .error err => guard.recordFailure intent finalStance recorded consumed err
  | .ok value =>
    guard.recordSuccess intent finalStance recorded reservationId consumed value

/-- The last look at the freeze, then the payment or, in two phases, the authorization. -/
def launchStage (mode : Mode) (intent : PaymentIntent) (finalStance : PolicyResult)
    (reservationId : JsString) (ours consumed : Option JsString) : Program GuardResult := do
  let recorded := recordedOf platform intent
  match ← ask .frozen with
  | some reason =>
    releaseIfOurs ours
    guard.settleFailed consumed intent
      "denied by freeze before execution; the rail was never invoked"
    denyFrozen intent reason
  | none =>
    match mode with
    | .authorize =>
      append .executionStarted (.object (recorded.members ++ [(encode "twoPhase", .boolean true)]))
        (refsOf intent)
      return .authorized intent.id finalStance consumed
    | .execute => guard.executeStage intent finalStance recorded reservationId consumed

/-- The message about an intent id that already holds a reservation. -/
def notBudgeted (intentId mandateId : JsString) : JsString :=
  "intent id " ++ quote intentId ++ " already holds a spend reservation from an earlier payment, " ++
    "but mandate " ++ quote mandateId ++ " treats this as a NEW use — so this payment would move " ++
    "funds that no spend window ever counted. Use a unique intent id per payment; reuse an id " ++
    "only to retry the SAME payment under the SAME mandate, which replays the original outcome " ++
    "instead of paying again"

/-- The mandate is consumed as the final gate. Nothing executes on a reservation it did not take. -/
def consumeStage (mode : Mode) (intent : PaymentIntent) (finalStance : PolicyResult)
    (reservationId : JsString) (replayed : Bool) : Program GuardResult := do
  let ours := if replayed then none else some reservationId
  if guard.requireMandate || truthy intent.mandateId then
    match guard.mandates with
    | none => throw .typeError
    | some manager =>
      let mandateId := intent.mandateId.getD []
      match ← manager.consumeOnce platform mandateId intent with
      | .rejected check =>
        releaseIfOurs ours
        denyRecorded intent
          (internalDeny (← ask .policy) ("MANDATE_" ++ check.code.text) check.message)
      | .replayed claim digestMatches =>
        releaseIfOurs ours
        if digestMatches then
          return .replayed intent.id (some mandateId) (originalOf claim)
        else
          denyRecorded intent (internalDeny (← ask .policy) "MANDATE_REPLAY_MISMATCH"
            "intent id was already consumed by a DIFFERENT payment (amount/merchant/rail changed)")
      | .consumed _ _ =>
        if replayed then
          guard.settleFailed (some mandateId) intent
            "denied before execution: no budget reservation was taken for this use"
          denyAudited (refsOf intent) "INTENT_ID_NOT_BUDGETED" (notBudgeted intent.id mandateId)
        else guard.launchStage platform mode intent finalStance reservationId ours (some mandateId)
  else guard.launchStage platform mode intent finalStance reservationId ours none

/-- The atomic budget reservation. A replay of one without a mandate ends here. -/
def reserveStage (mode : Mode) (intent : PaymentIntent) (finalStance : PolicyResult) :
    Program GuardResult := do
  let policy ← ask .policy
  let nowMs ← ask .now
  match ← orThrow (ask (.reserve {
      reservationId := intent.id
      -- the policy id, never the agent's
      scope := policy.id
      currency := policy.currency
      amountMinor := intent.amount.amountMinor
      nowMs := nowMs
      windows := policyWindows policy
      merchantKey := some (merchantKeyOf platform intent.merchant) })) with
  | .refused violation =>
    denyRecorded intent (internalDeny (← ask .policy) violation.code violation.message)
  | .ok reservationId replayed state =>
    if replayed && !(guard.requireMandate || truthy intent.mandateId) then
      replayedResult intent state
    else guard.consumeStage platform mode intent finalStance reservationId replayed

/-- The revocation gate, inside the critical section and after any human approval. -/
def revocationStage (mode : Mode) (intent : PaymentIntent) (finalStance : PolicyResult) :
    Program GuardResult := do
  append .policyDecision (decisionData finalStance) (refsOf intent)
  if guard.revocationCheck then
    let verdict ← match ← ask (.checkRevocation intent) with
      | .ok verdict => pure verdict
      | .error err => pure (.refused "REVOCATION_CHECK_FAILED"
          ("revocation status could not be determined (fail closed): " ++
            (← Async.settled (errMsg err))))
    match verdict with
    | .refused code message => denyRecorded intent (internalDeny (← ask .policy) code message)
    | .allowed => guard.reserveStage platform mode intent finalStance
  else guard.reserveStage platform mode intent finalStance

/-- The critical section: everything is decided again, against the current policy and totals. -/
def commit (mode : Mode) (intent : PaymentIntent) (approved : Bool) : Program GuardResult := do
  match ← ask .frozen with
  | some reason => denyFrozen intent reason
  | none =>
    let finalResult ← evaluatePolicy platform intent (← ask .policy) guard.countsMerchants
    match finalResult.decision, approved with
    | .deny, _ => denyRecorded intent finalResult
    | .requireApproval, false => denyRecorded intent (withExtraReason finalResult
        "APPROVAL_REQUIRED_AFTER_POLICY_CHANGE"
        "policy now requires approval that was not obtained (fail closed)")
    | _, _ =>
      match guard.risk with
      | none => guard.revocationStage platform mode intent finalResult
      | some risk =>
        match ← scoreRisk risk intent "final" with
        | .unscorable message => denyRiskUnscorable intent message
        | .scored assessment =>
          let finalStance := applyRiskTier finalResult assessment
          if assessment.tier = .high then denyRiskHigh risk intent finalResult assessment
          else if finalStance.decision = .requireApproval && !approved then
            denyRecorded intent (withExtraReason finalStance "RISK_STEPUP_UNAPPROVED"
              "risk reached the step-up tier after the preliminary evaluation; no approval was obtained (fail closed)")
          else guard.revocationStage platform mode intent finalStance

/-- Why the mandate of an intent denies it before anything is consumed. -/
def mandatePreflightFailure (intent : PaymentIntent) : Program (Option PolicyResult) := do
  match guard.mandates with
  | none => return some (internalDeny (← ask .policy) "MANDATE_MANAGER_MISSING"
      "mandate required but no MandateManager configured (fail closed)")
  | some manager =>
    if !truthy intent.mandateId then
      return some (internalDeny (← ask .policy) "MANDATE_REQUIRED"
        "policy requires a mandate but intent carries none")
    let check ← manager.check platform (intent.mandateId.getD []) intent
    if check.ok then return none
    return some (internalDeny (← ask .policy) ("MANDATE_" ++ check.code.text) check.message)

/-- The approval branch: no handler is a denial, and the answer is recorded before it is acted on.
`none` when the payment may go on. -/
def obtainApproval (intent : PaymentIntent) (stance : PolicyResult) :
    Program (Option GuardResult) := do
  if !guard.approvalHandler then
    return some (← denyRecorded intent (withExtraReason stance "NO_APPROVAL_HANDLER"
      "approval required but no approvalHandler configured (fail closed)"))
  append .approvalRequested (.object [("reasons", .array (stance.reasons.map reasonData))])
    (refsOf intent)
  let requestedAt ← nowIso
  let response ← orThrow (ask (.requestApproval ⟨intent, stance, requestedAt⟩))
  append .approvalResolved response.recorded (refsOf intent)
  if ← Async.settled response.approved then return none
  return some (.approvalRejected intent.id stance)

/-- Approval where the stance asks for it, then the critical section. -/
def approvalStage (mode : Mode) (intent : PaymentIntent) (stance : PolicyResult) :
    Program GuardResult := do
  if stance.decision = .requireApproval then
    match ← guard.obtainApproval intent stance with
    | some result => return result
    | none => exclusive .critical (guard.commit platform mode intent true)
  else exclusive .critical (guard.commit platform mode intent false)

/-- Preliminary evaluation, outside the mutex: a blocking approval never stalls other payments. -/
def preliminaryStage (mode : Mode) (intent : PaymentIntent) : Program GuardResult := do
  let prelim ← evaluatePolicy platform intent (← ask .policy) guard.countsMerchants
  if prelim.decision = .deny then denyRecorded intent prelim
  else
    match guard.risk with
    | none => guard.approvalStage platform mode intent prelim
    | some risk =>
      match ← scoreRisk risk intent "prelim" with
      | .unscorable message => denyRiskUnscorable intent message
      | .scored assessment =>
        if assessment.tier = .high then denyRiskHigh risk intent prelim assessment
        else guard.approvalStage platform mode intent (applyRiskTier prelim assessment)

/-- The gates before the preliminary evaluation: hydration, freeze and the mandate's pre-flight. -/
def gateStage (mode : Mode) (intent : PaymentIntent) : Program GuardResult := do
  if ← ask .hydrateFailed then
    denyAudited (refsOf intent) "HYDRATION_REQUIRED"
      "hydrateFromLedger() was attempted and failed; denying until a retry succeeds (fail closed)"
  else if guard.requireHydration && !(← ask .hydrated) then
    denyAudited (refsOf intent) "HYDRATION_REQUIRED"
      "requireHydration is set and hydrateFromLedger() has not succeeded (fail closed)"
  else
    match ← ask .frozen with
    | some reason => denyFrozen intent reason
    | none =>
      if guard.requireMandate || truthy intent.mandateId then
        match ← guard.mandatePreflightFailure platform intent with
        | some failure => denyRecorded intent failure
        | none => guard.preliminaryStage platform mode intent
      else guard.preliminaryStage platform mode intent

/-- The first audit write. Without it nothing goes on. -/
def receive (refs : Refs) (received : JsValue) (rest : Program GuardResult) :
    Program GuardResult := do
  match ← ask (.append .intentReceived received refs) with
  | .error err =>
    let policy ← ask .policy
    return .denied (refs.intentId.getD [])
      (internalDeny policy "AUDIT_WRITE_FAILED" (← Async.settled (errMsg err)))
  | .ok _ => rest

/-- The single decision pipeline. Any unexpected error denies the payment. -/
def run (mode : Mode) : Intake → Program GuardResult
  | .unclonable intentId agentId =>
    denyAudited ⟨some intentId, some agentId⟩ "INTENT_NOT_SERIALIZABLE"
      "intent could not be safely snapshotted"
  | .malformed intentId agentId received reasons =>
    let refs : Refs := ⟨some intentId, some agentId⟩
    receive refs received do
      let policy ← ask .policy
      let policyResult : PolicyResult := ⟨.deny, reasons, policy.id, policy.version⟩
      appendBestEffort .policyDecision (decisionData policyResult) refs
      return .denied intentId policyResult
  | .unidentified intentId agentId received offenders =>
    let refs : Refs := ⟨some intentId, some agentId⟩
    receive refs received do
      denyAudited refs "INTENT_ID_NOT_STRING" (offenders ++ " must be strings; a non-string " ++
        "identity cannot index the audit trail this attempt is recorded in (fail closed)")
  | .sound received intent =>
    receive (refsOf intent) received do
      tryCatch (guard.gateStage platform mode intent) fun err => do
        denyAudited (refsOf intent) "GUARD_INTERNAL_ERROR" (← Async.settled (errMsg err))

end VadunoGuard
end Vaduno.Guard
