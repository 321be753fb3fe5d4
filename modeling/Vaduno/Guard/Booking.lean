import Vaduno.Guard.Gates
import Vaduno.Guard.Settle
import Vaduno.Mandate.Progress
import Vaduno.Policy.Evaluation

/-! What a two-phase payment writes into the books: one row when it is authorized, in the critical section, and no
row of a result; that is left to its settlement. -/
namespace Vaduno.Guard
open Ecma Enforce Mandate Policy Ledger Async Program

/-- What has nothing to do with the books, and pays nothing. -/
def isBeside : Op → Prop
  | .enter .critical | .leave .critical | .ledgerTrail _ | .append .executionStarted _ _
  | .append .executionResult _ _ | .runExecutor _ => False
  | _ => True

/-- The data of a two-phase authorization. -/
def authorizationData (platform : Platform) (intent : PaymentIntent) : JsValue :=
  .object ((recordedOf platform intent).members ++ [(encode "twoPhase", .boolean true)])

/-- What the critical section of an authorization asks for. -/
def isAuthorizing (platform : Platform) (intent : PaymentIntent) (op : Op) : Prop :=
  isBeside op ∨
    op = .append .executionStarted (authorizationData platform intent) (refsOf intent) ∧ amountValid intent = true

variable {platform : Platform} {guard : VadunoGuard} {intent : PaymentIntent} {finalStance : PolicyResult}

theorem isBeside_of_isDeciding (deciding : isDeciding op) : isBeside op := by
  cases op with
  | enter _ | leave _ | ledgerTrail _ | runExecutor _ => cases deciding
  | append type data refs =>
    cases type with
    | executionStarted | executionResult => cases deciding
    | _ => trivial
  | _ => trivial

theorem isBeside_of_isApproving (approving : isApproving op) : isBeside op := by
  cases op with
  | append type data refs =>
    cases type with
    | approvalResolved => trivial
    | _ => cases approving
  | requestApproval _ => trivial
  | _ => cases approving

theorem isBeside_of_isDenying (denying : isDenying op) : isBeside op :=
  isBeside_of_isDeciding (isDeciding_of_isDenying denying)

/-- A result that does not deny is one of this policy, and none of its rules that need no history speaks against the
payment. -/
structure Admits (platform : Platform) (intent : PaymentIntent) (policy : SpendPolicy) (result : PolicyResult) :
    Prop where
  undenied : result.decision ≠ .deny
  ruled : ∃ nowMs, staticReasons platform intent policy nowMs = .ok []
  policyId : result.policyId = policy.id
  policyVersion : result.policyVersion = policy.version

theorem approvalDecision_policy {result : PolicyResult}
    (decided : approvalDecision platform intent policy = .ok result) :
    result.policyId = policy.id ∧ result.policyVersion = policy.version := by
  unfold approvalDecision at decided
  by_cases always : policy.approval.always = true
  · rw [if_pos always] at decided
    cases decided
    exact ⟨rfl, rfl⟩
  · rw [if_neg always] at decided
    by_cases absent : isUndefined policy.approval.aboveMinor = true
    · rw [if_pos absent] at decided
      cases decided
      exact ⟨rfl, rfl⟩
    · rw [if_neg absent] at decided
      obtain ⟨reached, -, decided⟩ := bind_ok decided
      cases reached with
      | true =>
        obtain ⟨text, -, decided⟩ := bind_ok decided
        cases decided
        exact ⟨rfl, rfl⟩
      | false =>
        cases decided
        exact ⟨rfl, rfl⟩

theorem evaluatePolicy_admits : (evaluatePolicy platform intent policy countsMerchants).Asks isWeighing
    fun r => ∀ result, r = .ok result → result.decision ≠ .deny → Admits platform intent policy result := by
  unfold evaluatePolicy
  refine bind_asks (ask_asks trivial) (by rintro e result ⟨⟩) fun nowMs => ?_
  cases ruled : staticReasons platform intent policy nowMs with
  | error e => rintro result ⟨⟩
  | ok reasons =>
    have decides : ∀ advice : List PolicyReason, (if reasons ++ advice ≠ [] then
        return ⟨.deny, reasons ++ advice, policy.id, policy.version⟩
        else Async.settled (approvalDecision platform intent policy) : Program PolicyResult).Asks isWeighing
          fun r => ∀ result, r = .ok result → result.decision ≠ .deny → Admits platform intent policy result :=
      fun advice => by
        split_ifs with reasoned
        · rintro result ⟨⟩ allowed
          exact absurd rfl allowed
        · rw [not_not, List.append_eq_nil_iff] at reasoned
          obtain ⟨rfl, -⟩ := reasoned
          intro result decided undenied
          obtain ⟨policyId, policyVersion⟩ := approvalDecision_policy decided
          exact ⟨undenied, ⟨nowMs, ruled⟩, policyId, policyVersion⟩
    refine bind_asks (p := Async.settled (misconfigured (policyWindows policy))) (settled_asks _)
      (by rintro e result ⟨⟩) fun malformed => ?_
    cases malformed with
    | none => exact bind_asks (windowsAdvice_weighs _) (by rintro e result ⟨⟩) decides
    | some reason => exact decides [reason]

/-- A payment that a policy does not deny has an amount that can be counted. -/
theorem Admits.counts {result : PolicyResult} (admits : Admits platform intent policy result) :
    amountValid intent = true := by
  obtain ⟨nowMs, ruled⟩ := admits.ruled
  obtain ⟨networks, amounts, -, -, whole⟩ := staticReasons_ok ruled
  simp only [List.nil_eq, List.append_eq_nil_iff] at whole
  obtain ⟨⟨⟨⟨⟨⟨⟨amount, -⟩, -⟩, -⟩, -⟩, -⟩, -⟩, -⟩ := whole
  by_contra invalid
  rw [Bool.not_eq_true] at invalid
  rw [amountReasons, invalid] at amount
  cases amount

/-- Consuming a mandate has its own queue and its own rows. -/
theorem consumeOnce_beside (manager : MandateManager) :
    (manager.consumeOnce platform mandateId intent).Asks isBeside anything := by
  refine (consumeOnce_meets.simulate (fun _ _ => True) trivial ?_ ?_).mono fun _ _ _ => trivial
  · rintro u _ op - ⟨allowed, -⟩
    cases op with
    | enter mutex | leave mutex =>
      cases mutex with
      | critical => cases allowed
      | consume => trivial
    | ledgerTrail _ | runExecutor _ => cases allowed
    | append type data refs =>
      cases type with
      | executionStarted | executionResult => rcases allowed with row | row <;> cases row
      | _ => trivial
    | _ => trivial
  · rintro u _ op ans _ - - -
    exact ⟨_, rfl, trivial⟩

namespace VadunoGuard

theorem settleBestEffort_beside : (guard.settleBestEffort mandateId useKey outcome).Asks isBeside anything := by
  unfold settleBestEffort MandateManager.settleUse
  cases guard.mandates with
  | none => trivial
  | some manager => exact (orThrow_asks (ask_asks trivial)).tryCatch fun _ => trivial

theorem settleConsumed_beside : (guard.settleConsumed consumed intent outcome).Asks isBeside anything := by
  unfold settleConsumed
  cases consumed with
  | none => trivial
  | some mandateId =>
    exact bind_asks (orThrow_asks (ask_asks trivial)) (fun _ => trivial) fun _ => settleBestEffort_beside

theorem commitBestEffort_beside : (commitBestEffort reservationId).Asks isBeside anything :=
  (orThrow_asks (ask_asks trivial)).tryCatch fun _ => ask_asks trivial

theorem releaseBestEffort_beside : (releaseBestEffort reservationId).Asks isBeside anything :=
  (orThrow_asks (ask_asks trivial)).tryCatch fun _ => ask_asks trivial

theorem releaseIfOurs_beside : (releaseIfOurs ours).Asks isBeside anything := by
  unfold releaseIfOurs
  split_ifs
  · exact releaseBestEffort_beside
  · trivial

/-! ### The critical section of an authorization -/

section Authorizing

theorem authorizing_beside {p : Program α} (beside : p.Asks isBeside anything) :
    p.Asks (isAuthorizing platform intent) anything :=
  beside.widen fun _ => .inl

theorem authorizing_deny {p : Program GuardResult} (asks : p.Asks isDenying Refused) :
    p.Asks (isAuthorizing platform intent) anything :=
  (asks.widen fun _ denying => .inl (isBeside_of_isDenying denying)).mono fun _ _ _ => trivial

theorem authorizing_decide {p : Program α} (asks : p.Asks isDeciding anything) :
    p.Asks (isAuthorizing platform intent) anything :=
  asks.widen fun _ deciding => .inl (isBeside_of_isDeciding deciding)

theorem authorizing_audited : (denyAudited refs code message).Asks (isAuthorizing platform intent) anything :=
  authorizing_deny (denyAudited_asks.mono fun _ _ => Refused.of_denied)

theorem launchStage_authorizes (counts : amountValid intent = true) :
    (guard.launchStage platform .authorize intent finalStance reservationId ours consumed).Asks
      (isAuthorizing platform intent) anything := by
  unfold launchStage
  refine bind_asks (ask_asks (.inl trivial)) (fun _ => trivial) fun frozen => ?_
  cases frozen with
  | some reason =>
    exact bind_asks (authorizing_beside releaseIfOurs_beside) (fun _ => trivial) fun _ =>
      bind_asks (authorizing_beside settleConsumed_beside) (fun _ => trivial) fun _ => authorizing_audited
  | none => exact bind_asks (orThrow_asks (ask_asks (.inr ⟨rfl, counts⟩))) (fun _ => trivial) fun _ => trivial

theorem consumeStage_authorizes (counts : amountValid intent = true) :
    (guard.consumeStage platform .authorize intent finalStance reservationId replayed).Asks
      (isAuthorizing platform intent) anything := by
  have release : (releaseIfOurs (if replayed then none else some reservationId)).Asks
      (isAuthorizing platform intent) anything := authorizing_beside releaseIfOurs_beside
  unfold consumeStage
  by_cases mandated : (guard.requireMandate || truthy intent.mandateId) = true
  · simp only [if_pos mandated]
    cases guard.mandates with
    | none => trivial
    | some manager =>
      refine bind_asks (authorizing_beside (consumeOnce_beside manager)) (fun _ => trivial) fun outcome => ?_
      cases outcome with
      | rejected check => exact bind_asks release (fun _ => trivial) fun _ => authorizing_deny (denyInternal_asks _)
      | replayed claim digestMatches =>
        refine bind_asks release (fun _ => trivial) fun _ => ?_
        split_ifs
        · trivial
        · exact authorizing_deny (denyInternal_asks _)
      | consumed check use =>
        change Asks _ _ (ite _ _ _)
        split_ifs
        · exact bind_asks (authorizing_beside settleConsumed_beside) (fun _ => trivial) fun _ => authorizing_audited
        · exact launchStage_authorizes counts
  · simp only [if_neg mandated]
    exact launchStage_authorizes counts

theorem replayedResult_asks : (replayedResult intent state).Asks isBeside anything := by
  unfold replayedResult
  rcases state with _ | _ | _
  · trivial
  · trivial
  · exact bind_asks (orThrow_asks (ask_asks trivial)) (fun _ => trivial) fun _ => trivial

theorem reserveStage_authorizes (counts : amountValid intent = true) :
    (guard.reserveStage platform .authorize intent finalStance).Asks (isAuthorizing platform intent) anything := by
  unfold reserveStage
  refine bind_asks (ask_asks (.inl trivial)) (fun _ => trivial) fun policy => ?_
  refine bind_asks (ask_asks (.inl trivial)) (fun _ => trivial) fun nowMs => ?_
  refine bind_asks (orThrow_asks (ask_asks (.inl trivial))) (fun _ => trivial) fun answered => ?_
  cases answered with
  | refused violation => exact authorizing_deny (denyInternal_asks _)
  | ok reservationId replayed state =>
    change Asks _ _ (ite _ _ _)
    split_ifs
    · exact authorizing_beside replayedResult_asks
    · exact consumeStage_authorizes counts

theorem revocationStage_authorizes (counts : amountValid intent = true) :
    (guard.revocationStage platform .authorize intent finalStance).Asks (isAuthorizing platform intent) anything := by
  unfold revocationStage append
  refine bind_asks (orThrow_asks (ask_asks (.inl trivial))) (fun _ => trivial) fun _ => ?_
  split_ifs
  · refine bind_asks (ask_asks (.inl trivial)) (fun _ => trivial) fun checked => ?_
    cases checked with
    | ok verdict =>
      cases verdict with
      | allowed => exact reserveStage_authorizes counts
      | refused code message => exact authorizing_deny (denyInternal_asks _)
    | error err =>
      exact bind_asks (settled_asks _) (fun _ => trivial) fun text => authorizing_deny (denyInternal_asks _)
  · exact reserveStage_authorizes counts

theorem commit_authorizes : (guard.commit platform .authorize intent approved).Asks
    (isAuthorizing platform intent) anything := by
  unfold commit
  refine bind_asks (ask_asks (.inl trivial)) (fun _ => trivial) fun frozen => ?_
  cases frozen with
  | some reason => exact authorizing_audited
  | none =>
    refine bind_asks (ask_asks (.inl trivial)) (fun _ => trivial) fun policy => ?_
    refine Meets.bind (evaluatePolicy_admits.widen fun _ weighing =>
      .inl (isBeside_of_isDeciding (isDeciding_of_isWeighing weighing))) ?_ fun _ _ _ => trivial
    intro _ result admitted
    have counts := fun undenied => (admitted result rfl undenied).counts
    split
    · exact authorizing_deny denyRecorded_asks
    · exact authorizing_deny denyRecorded_asks
    · rename_i undenied _
      replace counts := counts undenied
      split
      · exact revocationStage_authorizes counts
      · refine bind_asks (authorizing_decide scoreRisk_asks) (fun _ => trivial) fun scored => ?_
        cases scored with
        | unscorable message => exact authorizing_deny (denyInternal_asks _)
        | scored assessment =>
          change Asks _ _ (ite _ _ _)
          split_ifs
          · exact authorizing_decide (denyRiskHigh_asks.mono fun _ _ _ => trivial)
          · exact authorizing_deny denyRecorded_asks
          · exact revocationStage_authorizes counts

end Authorizing
end VadunoGuard
end Vaduno.Guard
