import Vaduno.Guard.Pipeline

/-! What the parts of the pipeline ask for that neither reserve, consume nor pay: they read, they
decide, they ask for approval and they record. -/
namespace Vaduno.Guard
open Ecma Enforce Mandate Policy Ledger Async Program

/-- What a denial or a result is recorded with. -/
def isRecording : Op → Prop
  | .policy | .degrade _ | .append .policyDecision _ _ | .append .executionResult _ _ => True
  | _ => False

/-- What may be asked for before there is a reservation. -/
def isPreliminary : Op → Prop
  | .enter _ | .leave _ | .reserve _ | .commitSpend _ | .releaseSpend _ | .getClaim .. | .claimUse ..
  | .settleClaim .. | .mirrorUses .. | .recordExecuted _ | .runExecutor _ | .innerSign _
  | .append .executionStarted _ _ => False
  | _ => True

/-- What an approval asks for. -/
def isApproving : Op → Prop
  | .requestApproval _ | .append .approvalResolved _ _ => True
  | _ => False

/-- What a decision asks for: it records no result, it reads no trail, and it leaves approval to others. -/
def isDeciding : Op → Prop
  | .append .executionResult _ _ | .ledgerTrail _ | .requestApproval _ | .append .approvalResolved _ _ => False
  | op => isPreliminary op

/-- What an evaluation or a risk score asks for. -/
def isWeighing : Op → Prop
  | .now | .policy | .totalsSince .. | .merchantCountSince .. | .ledgerAll | .append .riskScored _ _ => True
  | _ => False

/-- What a denial is recorded with. -/
def isDenying : Op → Prop
  | .append .executionResult _ _ => False
  | op => isRecording op

theorem isPreliminary_of_isDeciding (deciding : isDeciding op) : isPreliminary op := by
  unfold isDeciding at deciding
  split at deciding
  · cases deciding
  · cases deciding
  · cases deciding
  · cases deciding
  · exact deciding

theorem isPreliminary_of_isApproving (approving : isApproving op) : isPreliminary op := by
  unfold isApproving at approving
  split at approving
  · trivial
  · trivial
  · cases approving

theorem isRecording_of_isDenying (denying : isDenying op) : isRecording op := by
  unfold isDenying at denying
  split at denying
  · cases denying
  · exact denying

theorem isDeciding_of_isDenying (denying : isDenying op) : isDeciding op := by
  cases op with
  | policy | degrade _ => trivial
  | append type data refs =>
    cases type with
    | policyDecision => trivial
    | _ => cases denying
  | _ => cases denying

theorem isDeciding_of_isWeighing (weighing : isWeighing op) : isDeciding op := by
  cases op with
  | append type data refs =>
    cases type with
    | riskScored => trivial
    | _ => cases weighing
  | now | policy | totalsSince | merchantCountSince | ledgerAll => trivial
  | _ => cases weighing

/-- The results that pay nothing and promise nothing. -/
def Refused : Throwing GuardResult → Prop
  | .ok (.denied ..) | .error _ => True
  | _ => False

variable {kind : Op → Prop} {guard : VadunoGuard} {platform : Platform} {intent : PaymentIntent}

theorem appendBestEffort_asks (append : kind (.append type data refs))
    (degrade : kind (.degrade .audit)) :
    (appendBestEffort type data refs).Asks kind (fun r => r = .ok ()) := by
  unfold appendBestEffort Guard.append
  rw [Asks, meets_tryCatch, meets_orThrow]
  refine ⟨append, fun appended _ _ => ?_⟩
  cases appended with
  | ok _ => rfl
  | error _ => exact ⟨degrade, fun _ _ _ => rfl⟩

theorem denyAudited_asks : (denyAudited refs code message).Asks isDenying
    (fun r => ∃ intentId policyResult, r = .ok (.denied intentId policyResult)) := by
  unfold denyAudited
  rw [Asks, meets_bind]
  refine ⟨trivial, fun policy _ _ => ?_⟩
  refine Meets.bind (appendBestEffort_asks trivial trivial) ?_ ?_
  · intro _ _ _
    exact ⟨_, _, rfl⟩
  · intro _ _ failed
    cases failed

theorem denyRecorded_asks : (denyRecorded intent policyResult).Asks isDenying Refused := by
  unfold denyRecorded append
  rw [Asks, meets_bind, meets_orThrow]
  refine ⟨trivial, fun appended _ _ => ?_⟩
  cases appended <;> trivial

theorem denyInternal_asks (policyResult : SpendPolicy → PolicyResult) :
    (do denyRecorded intent (policyResult (← ask .policy)) : Program GuardResult).Asks isDenying
      Refused := by
  rw [Asks, meets_bind]
  exact ⟨trivial, fun _ _ _ => denyRecorded_asks⟩

theorem Refused.of_denied (denied : ∃ intentId policyResult, r = .ok (.denied intentId policyResult)) :
    Refused r := by
  obtain ⟨intentId, policyResult, rfl⟩ := denied
  trivial

theorem windowAdvice_weighs :
    (windowAdvice platform intent policy countsMerchants nowMs w).Asks isWeighing anything := by
  unfold windowAdvice
  split_ifs
  · trivial
  · exact bind_asks (settled_asks _) (fun _ => trivial) fun _ => trivial
  · exact bind_asks (settled_asks _) (fun _ => trivial) fun _ =>
      bind_asks (orThrow_asks (ask_asks trivial)) (fun _ => trivial) fun _ => trivial
  · exact bind_asks (settled_asks _) (fun _ => trivial) fun _ =>
      bind_asks (orThrow_asks (ask_asks trivial)) (fun _ => trivial) fun _ => trivial

theorem windowsAdvice_weighs (windows : List SpendWindow) :
    (windowsAdvice platform intent policy countsMerchants nowMs windows).Asks isWeighing
      anything := by
  induction windows with
  | nil => trivial
  | cons w rest ih =>
    exact bind_asks windowAdvice_weighs (fun _ => trivial) fun _ =>
      bind_asks ih (fun _ => trivial) fun _ => trivial

theorem evaluatePolicy_weighs :
    (evaluatePolicy platform intent policy countsMerchants).Asks isWeighing anything := by
  unfold evaluatePolicy
  refine bind_asks (ask_asks trivial) (fun _ => trivial) fun nowMs => ?_
  refine bind_asks (settled_asks _) (fun _ => trivial) fun reasons =>
    bind_asks (settled_asks _) (fun _ => trivial) fun malformed => ?_
  have decides : ∀ advice : List PolicyReason, (if reasons ++ advice ≠ [] then
      return ⟨.deny, reasons ++ advice, policy.id, policy.version⟩
      else Async.settled (approvalDecision platform intent policy) :
        Program PolicyResult).Asks isWeighing anything := fun advice => by
    split_ifs
    · trivial
    · exact settled_asks _
  cases malformed with
  | none => exact bind_asks (windowsAdvice_weighs _) (fun _ => trivial) decides
  | some reason => exact decides [reason]

theorem windowsAdvice_asks (windows : List SpendWindow) :
    (windowsAdvice platform intent policy countsMerchants nowMs windows).Asks isDeciding anything :=
  (windowsAdvice_weighs windows).widen fun _ => isDeciding_of_isWeighing

theorem evaluatePolicy_asks :
    (evaluatePolicy platform intent policy countsMerchants).Asks isDeciding anything :=
  evaluatePolicy_weighs.widen fun _ => isDeciding_of_isWeighing

namespace VadunoGuard
variable {scorecard : RiskScorecard}

theorem scoreRisk_weighs : (scoreRisk scorecard intent phase).Asks isWeighing anything := by
  unfold scoreRisk
  refine bind_asks (ask_asks trivial) (fun _ => trivial) fun read => ?_
  cases read with
  | error err => exact bind_asks (settled_asks _) (fun _ => trivial) fun _ => trivial
  | ok entries =>
    refine bind_asks (ask_asks trivial) (fun _ => trivial) fun policy => ?_
    refine bind_asks (ask_asks trivial) (fun _ => trivial) fun nowMs => ?_
    rcases scorecard.assess intent policy entries nowMs with (failure | failure) | assessment
    · trivial
    · trivial
    · exact bind_asks (orThrow_asks (ask_asks trivial)) (fun _ => trivial) fun _ => trivial

theorem scoreRisk_asks : (scoreRisk scorecard intent phase).Asks isDeciding anything :=
  scoreRisk_weighs.widen fun _ => isDeciding_of_isWeighing

theorem freeze_asks : (freeze reason autoFreeze).Asks isDeciding anything := by
  unfold freeze append
  refine bind_asks (ask_asks trivial) (fun _ => trivial) fun _ => ?_
  rw [Asks, meets_tryCatch, meets_orThrow]
  refine ⟨trivial, fun appended _ _ => ?_⟩
  cases appended with
  | ok _ => trivial
  | error _ => exact ask_asks trivial

theorem denyRiskHigh_asks : (denyRiskHigh scorecard intent base assessment).Asks isDeciding Refused := by
  have denies : (denyRecorded intent (applyRiskTier base assessment)).Asks isDeciding Refused :=
    denyRecorded_asks.widen fun _ => isDeciding_of_isDenying
  unfold denyRiskHigh
  cases scorecard.autoFreezeAtScore with
  | none => exact denies
  | some atScore =>
    change Meets _ _ (ite _ _ _) _
    split_ifs
    · refine bind_asks (ask_asks trivial) (fun _ => trivial) fun frozen => ?_
      split_ifs
      · exact bind_asks freeze_asks (fun _ => trivial) fun _ => denies
      · exact denies
    · exact denies

theorem checkState_asks (manager : MandateManager) :
    (manager.checkState platform state intent uses).Asks isDeciding anything := by
  unfold MandateManager.checkState
  split
  · trivial
  · split_ifs
    · trivial
    · exact bind_asks (ask_asks trivial) (fun _ => trivial) fun _ => settled_asks _

theorem check_asks (manager : MandateManager) :
    (manager.check platform mandateId intent).Asks isDeciding anything := by
  unfold MandateManager.check
  refine bind_asks (ask_asks trivial) (fun _ => trivial) fun known => ?_
  cases known with
  | none => trivial
  | some state => exact checkState_asks manager

/-- Where the preflight finds nothing wrong, the manager that consuming will need is there. -/
theorem mandatePreflightFailure_asks :
    (guard.mandatePreflightFailure platform intent).Asks isDeciding
      (fun r => r = .ok none → guard.mandates.isSome) := by
  unfold mandatePreflightFailure
  cases guard.mandates with
  | none => exact ⟨trivial, fun _ _ _ failed => nomatch failed⟩
  | some manager =>
    change Meets _ _ (ite _ _ _) _
    refine Meets.mono (p := ite _ _ _) (?_ : Meets _ (fun _ => anything) _ _) fun _ _ _ _ => rfl
    split_ifs
    · exact bind_asks (ask_asks trivial) (fun _ => trivial) fun _ => trivial
    · refine bind_asks (check_asks manager) (fun _ => trivial) fun check => ?_
      split_ifs
      · trivial
      · exact bind_asks (ask_asks trivial) (fun _ => trivial) fun _ => trivial

/-- An approval is obtained, refused or not to be had. -/
def WithoutApproval : Throwing (Option GuardResult) → Prop
  | .ok (some (.approvalRejected ..)) => True
  | .ok (some result) => Refused (.ok result)
  | _ => True

theorem obtainApproval_asks :
    (guard.obtainApproval intent stance).Asks (fun op => isDeciding op ∨ isApproving op) WithoutApproval := by
  have denies : (denyRecorded intent (withExtraReason stance "NO_APPROVAL_HANDLER"
      "approval required but no approvalHandler configured (fail closed)")).Asks
        (fun op => isDeciding op ∨ isApproving op) Refused :=
    denyRecorded_asks.widen fun _ denying => .inl (isDeciding_of_isDenying denying)
  unfold obtainApproval append
  split_ifs
  · refine Meets.bind denies ?_ fun _ _ _ => trivial
    intro _ result refused
    cases result <;> first | exact refused | trivial
  · refine bind_asks (orThrow_asks (ask_asks (.inl trivial))) (fun _ => trivial) fun _ => ?_
    refine bind_asks (orThrow_asks (ask_asks (.inl trivial))) (fun _ => trivial) fun requestedAt => ?_
    refine bind_asks (orThrow_asks (ask_asks (.inr trivial))) (fun _ => trivial) fun response => ?_
    refine bind_asks (orThrow_asks (ask_asks (.inr trivial))) (fun _ => trivial) fun _ => ?_
    refine bind_asks (settled_asks _) (fun _ => trivial) fun approved => ?_
    split_ifs <;> trivial

end VadunoGuard
end Vaduno.Guard
