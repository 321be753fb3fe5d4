import Vaduno.Guard.Booking
import Vaduno.Guard.Course

/-! What stands before a payment. The rail is run, and a two-phase payment is promised, only once the ledger has the
attempt and the decision, the policy of the decision has no rule against the payment, a human has said yes where that
policy or the risk asks for one, and the budget and the mandate are taken. -/
namespace Vaduno.Guard
open Ecma Enforce Mandate Policy Ledger Async Program

/-- What a call has achieved so far. -/
structure Launch where
  /-- The ledger has the attempt. -/
  received : Bool
  /-- The approval handler said yes, and the ledger has its answer. -/
  granted : Bool
  approved : Bool
  inside : Bool
  /-- The guard was frozen when it was looked at last. -/
  frozen : Bool
  /-- The policy that was read first in the critical section, and the decision that the ledger has. -/
  policy : Option SpendPolicy
  decided : Option JsValue
  unrevoked : Bool
  reserved : Option ReserveRequest
  claimed : Option UseClaim
  /-- The ledger has the start of the execution. -/
  started : Bool

namespace Launch

def start : Launch := ⟨false, false, false, false, false, none, none, false, none, none, false⟩

/-- An attempt that is recorded, with an approval or without one. -/
def heard (approved : Bool) : Launch := { start with received := true, granted := approved, approved := approved }

/-- Where an answer leads in the critical section. -/
def settling (l : Launch) : (op : Op) → op.Answer → Launch
  | .leave .critical, _ => { l with inside := false }
  | .frozen, reason => { l with frozen := reason.isSome }
  | .policy, policy => { l with policy := some (l.policy.getD policy) }
  | .append .policyDecision data _, .ok _ => { l with decided := some data }
  | .checkRevocation _, .ok .allowed => { l with unrevoked := true }
  | .reserve request, .ok (.ok _ false _) => { l with reserved := some request }
  | .claimUse claim _, .ok (.winner _) => { l with claimed := some claim }
  | .append .executionStarted _ _, .ok _ => { l with started := true }
  | _, _ => l

/-- Where it leads before. -/
def asking (l : Launch) : (op : Op) → op.Answer → Launch
  | .append .intentReceived _ _, .ok _ => { l with received := true }
  | .requestApproval _, .ok response => { l with granted := decide (response.approved.toOption = some true) }
  | .append .approvalResolved _ _, .ok _ => { l with approved := l.granted }
  | .enter .critical, _ => { l with inside := true }
  | _, _ => l

def advance (l : Launch) (op : Op) (ans : op.Answer) : Launch :=
  if l.inside then l.settling op ans else l.asking op ans

variable (platform : Platform) (guard : VadunoGuard) (intent : PaymentIntent)

/-- The policy that was read has no rule against the payment, and the recorded decision is one of that policy, with an
approval where it asks for one. -/
def Decided (l : Launch) : Prop :=
  ∃ policy result, l.policy = some policy ∧ Admits platform intent policy result ∧
    l.decided = some (decisionData result) ∧ (result.decision = .requireApproval → l.approved = true)

/-- The limiter has taken a new reservation for this payment. -/
def Budgeted (l : Launch) : Prop :=
  ∃ request, l.reserved = some request ∧ request.reservationId = intent.id ∧
    request.amountMinor = intent.amount.amountMinor ∧
    request.merchantKey = some (merchantKeyOf platform intent.merchant)

/-- A use of the mandate is claimed for this payment. -/
def Mandated (l : Launch) : Prop :=
  ∃ claim, l.claimed = some claim ∧ claim.mandateId = intent.mandateId.getD [] ∧ claim.useKey = intent.id ∧
    intentDigest platform intent = .ok claim.intentDigest

/-- Everything that a payment needs. -/
structure Cleared (l : Launch) : Prop where
  received : l.received = true
  unfrozen : l.frozen = false
  decided : l.Decided platform intent
  unrevoked : guard.revocationCheck = true → l.unrevoked = true
  budgeted : l.Budgeted platform intent
  mandated : (guard.requireMandate || truthy intent.mandateId) = true → l.Mandated platform intent

/-- The rail waits for the start to be recorded, and that for everything else. -/
def monitor : Monitor Op.Answer Launch where
  allowed l
    | .append .executionStarted _ refs => l.inside = true ∧ l.Cleared platform guard intent ∧ refs = refsOf intent
    | .runExecutor payment =>
      l.inside = true ∧ l.Cleared platform guard intent ∧ l.started = true ∧ payment = intent
    | _ => True
  step l op ans l' := l' = l.advance op ans

/-- What a result that pays or promises says. -/
def Paid (l : Launch) : Throwing GuardResult → Prop
  | .ok (.executed intentId _ _ _) | .ok (.failed intentId _ _) | .ok (.authorized intentId _ _) =>
    l.Cleared platform guard intent ∧ l.started = true ∧ intentId = intent.id
  | _ => True

end Launch

variable {platform : Platform} {guard : VadunoGuard} {mode : Mode} {intent : PaymentIntent} {l : Launch}
  {finalStance : PolicyResult}

/-! ### What leads to no payment -/

/-- What neither starts an execution nor runs a rail. -/
def isHarmless : Op → Prop
  | .append .executionStarted _ _ | .runExecutor _ => False
  | _ => True

theorem isHarmless_of_isDeciding (deciding : isDeciding op) : isHarmless op := by
  cases op with
  | runExecutor _ => cases deciding
  | append type data refs =>
    cases type with
    | executionStarted => cases deciding
    | _ => trivial
  | _ => trivial

theorem isHarmless_of_isBeside (beside : isBeside op) : isHarmless op := by
  cases op with
  | runExecutor _ => cases beside
  | append type data refs =>
    cases type with
    | executionStarted => cases beside
    | _ => trivial
  | _ => trivial

theorem allowed_of_isHarmless (harmless : isHarmless op) : (Launch.monitor platform guard intent).allowed l op := by
  cases op with
  | runExecutor _ => cases harmless
  | append type data refs =>
    cases type with
    | executionStarted => cases harmless
    | _ => trivial
  | _ => trivial

theorem Launch.paid_of_refused (refused : Refused r) : l.Paid platform guard intent r := by
  cases r with
  | error e => trivial
  | ok result => cases result <;> trivial

theorem harmless_meets {post : Throwing α → Prop} {p : Program α} (asks : p.Asks isHarmless post) :
    p.Meets (Launch.monitor platform guard intent) (fun _ r => post r) l := by
  refine (Meets.simulate asks (fun _ _ => True) trivial ?_ ?_).mono ?_
  · exact fun _ _ op _ harmless => allowed_of_isHarmless harmless
  · exact fun _ _ _ _ _ _ _ _ => ⟨(), trivial, trivial⟩
  · rintro l r ⟨_, -, settled⟩
    exact settled

theorem refuse_launches {p : Program GuardResult} (asks : p.Asks isHarmless Refused) :
    p.Meets (Launch.monitor platform guard intent) (Launch.Paid platform guard intent) l :=
  (harmless_meets asks).mono fun _ _ refused => Launch.paid_of_refused refused

theorem deny_launches {p : Program GuardResult} (asks : p.Asks isDenying Refused) :
    p.Meets (Launch.monitor platform guard intent) (Launch.Paid platform guard intent) l :=
  refuse_launches (asks.widen fun _ denying => isHarmless_of_isDeciding (isDeciding_of_isDenying denying))

theorem audited_launches : (denyAudited refs code message).Meets (Launch.monitor platform guard intent)
    (Launch.Paid platform guard intent) l :=
  deny_launches (denyAudited_asks.mono fun _ _ => Refused.of_denied)

/-- What comes before a refusal. -/
theorem harmless_bind {p : Program α} {f : α → Program GuardResult} (first : p.Asks isHarmless anything)
    (rest : ∀ l a, (f a).Meets (Launch.monitor platform guard intent) (Launch.Paid platform guard intent) l) :
    (p >>= f).Meets (Launch.monitor platform guard intent) (Launch.Paid platform guard intent) l :=
  Meets.bind (harmless_meets first) (fun l a _ => rest l a) fun _ _ _ => trivial

/-! ### The critical section -/

theorem quiet_weighing {policy : SpendPolicy} (inside : l.inside = true) (known : l.policy = some policy)
    (weighing : isWeighing op) : (Launch.monitor platform guard intent).Quiet l op := by
  refine ⟨allowed_of_isHarmless (isHarmless_of_isDeciding (isDeciding_of_isWeighing weighing)), ?_⟩
  rintro ans l' rfl
  rw [Launch.advance, if_pos inside]
  cases op with
  | policy =>
    rw [Launch.settling, known, Option.getD_some, ← known]
  | append type data refs =>
    cases type with
    | riskScored => rfl
    | _ => cases weighing
  | now | totalsSince | merchantCountSince | ledgerAll => rfl
  | _ => cases weighing

/-- What is asked for once the rail has run. -/
def isReporting : Op → Prop
  | .commitSpend _ | .degrade _ | .now | .nowIso | .recordExecuted _ | .settleClaim ..
  | .append .executionResult _ _ => True
  | _ => False

theorem quiet_reporting (inside : l.inside = true) (reporting : isReporting op) :
    (Launch.monitor platform guard intent).Quiet l op := by
  constructor
  · cases op with
    | runExecutor _ => cases reporting
    | append type data refs =>
      cases type with
      | executionStarted => cases reporting
      | _ => trivial
    | _ => trivial
  · rintro ans l' rfl
    rw [Launch.advance, if_pos inside]
    cases op with
    | append type data refs =>
      cases type with
      | executionResult => rfl
      | _ => cases reporting
    | commitSpend | degrade | now | nowIso | recordExecuted | settleClaim => rfl
    | _ => cases reporting

/-- What a run of the rail is reported as. -/
def RailReported (intent : PaymentIntent) : Throwing GuardResult → Prop
  | .ok (.executed intentId _ _ _) | .ok (.failed intentId _ _) => intentId = intent.id
  | .error _ => True
  | _ => False

namespace VadunoGuard

theorem settleConsumed_reports : (guard.settleConsumed consumed intent outcome).Asks isReporting anything := by
  unfold settleConsumed
  cases consumed with
  | none => trivial
  | some mandateId =>
    refine bind_asks (orThrow_asks (ask_asks trivial)) (fun _ => trivial) fun _ => ?_
    unfold settleBestEffort MandateManager.settleUse
    cases guard.mandates with
    | none => trivial
    | some manager => exact (orThrow_asks (ask_asks trivial)).tryCatch fun _ => trivial

theorem recordFailure_reports :
    (guard.recordFailure intent finalStance recorded consumed err).Asks isReporting (RailReported intent) := by
  unfold recordFailure settleFailed
  refine bind_asks (settled_asks _) (fun _ => trivial) fun message => ?_
  refine bind_asks ((appendBestEffort_asks trivial trivial).mono fun _ _ _ => trivial) (fun _ => trivial) fun _ => ?_
  exact bind_asks settleConsumed_reports (fun _ => trivial) fun _ => rfl

theorem reportExecuted_reports :
    (reportExecuted intent finalStance recorded value).Asks isReporting (RailReported intent) := by
  unfold reportExecuted
  refine bind_asks (ask_asks trivial) (fun _ => trivial) fun appended => ?_
  cases appended with
  | ok _ => rfl
  | error e => exact bind_asks (ask_asks trivial) (fun _ => trivial) fun _ => rfl

theorem recordSuccess_reports :
    (guard.recordSuccess intent finalStance recorded reservationId consumed value).Asks isReporting
      (RailReported intent) := by
  unfold recordSuccess
  refine bind_asks ((orThrow_asks (ask_asks trivial)).tryCatch fun _ => ask_asks trivial) (fun _ => trivial) fun _ => ?_
  have rest : (do
      guard.settleConsumed consumed intent fun settledAt => ⟨.executed, settledAt, none⟩
      reportExecuted intent finalStance recorded value : Program GuardResult).Asks isReporting (RailReported intent) :=
    bind_asks settleConsumed_reports (fun _ => trivial) fun _ => reportExecuted_reports
  split_ifs
  · refine bind_asks (ask_asks trivial) (fun _ => trivial) fun nowMs => ?_
    exact bind_asks (ask_asks trivial) (fun _ => trivial) fun _ => rest
  · exact rest

end VadunoGuard

/-- What was achieved stays while a run of the rail is reported. -/
theorem report_launches {p : Program GuardResult} (asks : p.Asks isReporting (RailReported intent))
    (inside : l.inside = true) (cleared : l.Cleared platform guard intent) (started : l.started = true) :
    p.Meets (Launch.monitor platform guard intent) (Launch.Paid platform guard intent) l := by
  refine (asks.meets fun _ => quiet_reporting inside).mono ?_
  rintro _ r ⟨rfl, reported⟩
  cases r with
  | error e => trivial
  | ok result => cases result <;> first | exact ⟨cleared, started, reported⟩ | trivial

theorem Launch.Cleared.begun (cleared : l.Cleared platform guard intent) :
    Launch.Cleared platform guard intent { l with started := true } where
  received := cleared.received
  unfrozen := cleared.unfrozen
  decided := cleared.decided
  unrevoked := cleared.unrevoked
  budgeted := cleared.budgeted
  mandated := cleared.mandated

/-- Recording the start. -/
theorem begin_launches {rest : Program GuardResult} (inside : l.inside = true)
    (cleared : l.Cleared platform guard intent)
    (meets : rest.Meets (Launch.monitor platform guard intent) (Launch.Paid platform guard intent)
      { l with started := true }) :
    (do append .executionStarted data (refsOf intent); rest).Meets (Launch.monitor platform guard intent)
      (Launch.Paid platform guard intent) l := by
  refine meets_orThrow_bind.mpr ⟨⟨inside, cleared, rfl⟩, ?_⟩
  rintro appended l' rfl
  rw [Launch.advance, if_pos inside]
  cases appended with
  | ok _ => exact meets
  | error e => trivial

namespace VadunoGuard

theorem executeStage_launches (inside : l.inside = true) (cleared : l.Cleared platform guard intent) :
    (guard.executeStage intent finalStance recorded reservationId consumed).Meets
      (Launch.monitor platform guard intent) (Launch.Paid platform guard intent) l := by
  unfold executeStage
  refine begin_launches inside cleared ((meets_bind _ _ _).mpr ⟨⟨inside, cleared.begun, rfl, rfl⟩, ?_⟩)
  rintro outcome l' rfl
  rw [Launch.advance, if_pos inside]
  cases outcome with
  | error err => exact report_launches recordFailure_reports inside cleared.begun rfl
  | ok value => exact report_launches recordSuccess_reports inside cleared.begun rfl

theorem launchStage_launches (inside : l.inside = true) (cleared : l.Cleared platform guard intent) :
    (guard.launchStage platform mode intent finalStance reservationId ours consumed).Meets
      (Launch.monitor platform guard intent) (Launch.Paid platform guard intent) l := by
  unfold launchStage
  refine (meets_bind _ _ _).mpr ⟨trivial, ?_⟩
  rintro frozen l' rfl
  rw [Launch.advance, if_pos inside]
  cases frozen with
  | some reason =>
    refine harmless_bind (releaseIfOurs_beside.widen fun _ => isHarmless_of_isBeside) fun l _ => ?_
    exact harmless_bind (settleConsumed_beside.widen fun _ => isHarmless_of_isBeside) fun l _ => audited_launches
  | none =>
    have still : Launch.Cleared platform guard intent { l with frozen := false } :=
      ⟨cleared.received, rfl, cleared.decided, cleared.unrevoked, cleared.budgeted, cleared.mandated⟩
    cases mode with
    | authorize => exact begin_launches inside still ⟨still.begun, rfl, rfl⟩
    | execute => exact executeStage_launches inside still

end VadunoGuard

/-- Everything but the budget and the mandate. -/
structure Launch.Ready (platform : Platform) (guard : VadunoGuard) (intent : PaymentIntent) (l : Launch) : Prop where
  inside : l.inside = true
  received : l.received = true
  unfrozen : l.frozen = false
  decided : l.Decided platform intent
  unrevoked : guard.revocationCheck = true → l.unrevoked = true

theorem Launch.Ready.cleared (ready : l.Ready platform guard intent) (budgeted : l.Budgeted platform intent)
    (mandated : (guard.requireMandate || truthy intent.mandateId) = true → l.Mandated platform intent) :
    l.Cleared platform guard intent :=
  ⟨ready.received, ready.unfrozen, ready.decided, ready.unrevoked, budgeted, mandated⟩

/-- Consuming the mandate leaves everything else as it was. -/
theorem consumeOnce_launches {manager : MandateManager} (inside : l.inside = true) :
    (manager.consumeOnce platform mandateId intent).Meets (Launch.monitor platform guard intent)
      (fun l' r => (∃ claimed, l' = { l with claimed := claimed }) ∧ ∀ check use, r = .ok (.consumed check use) →
        ∃ claim, l'.claimed = some claim ∧ claim.mandateId = mandateId ∧ claim.useKey = intent.id ∧
          intentDigest platform intent = .ok claim.intentDigest) l := by
  refine (consumeOnce_meets.simulate (fun (s : Standing) l' => (∃ claimed, l' = { l with claimed := claimed }) ∧
    ∀ claim, s.progress = .won claim → l'.claimed = some claim) ⟨⟨l.claimed, rfl⟩, ?_⟩ ?_ ?_).mono ?_
  · rintro claim ⟨⟩
  · rintro s _ op - ⟨allowed, -⟩
    refine allowed_of_isHarmless ?_
    cases op with
    | runExecutor _ => cases allowed
    | append type data refs =>
      cases type with
      | executionStarted => rcases allowed with row | row <;> cases row
      | _ => trivial
    | _ => trivial
  · rintro s _ op ans l' ⟨⟨claimed, rfl⟩, known⟩ ⟨allowed, -⟩ rfl
    refine ⟨_, rfl, ?_⟩
    rw [Launch.advance, if_pos inside]
    cases op with
    | claimUse claim maxUses =>
      rcases ans with e | (used | existing | used)
      · exact ⟨⟨claimed, rfl⟩, known⟩
      · refine ⟨⟨some claim, rfl⟩, ?_⟩
        rintro _ ⟨⟩
        rfl
      · refine ⟨⟨claimed, rfl⟩, ?_⟩
        rintro _ ⟨⟩
      · exact ⟨⟨claimed, rfl⟩, known⟩
    | mandateState mandateId | getClaim mandateId useKey =>
      refine ⟨⟨claimed, rfl⟩, fun claim won => known claim ?_⟩
      exact (advance_won won).resolve_right (by rintro ⟨_, _, ⟨⟩⟩)
    | append type data refs =>
      rcases allowed with rfl | rfl
      · exact ⟨⟨claimed, rfl⟩, known⟩
      · exact ⟨⟨claimed, rfl⟩, known⟩
    | enter mutex | leave mutex =>
      cases mutex with
      | critical => cases allowed
      | consume => exact ⟨⟨claimed, rfl⟩, known⟩
    | now | nowIso | mirrorUses => exact ⟨⟨claimed, rfl⟩, known⟩
    | settleClaim => cases allowed
    | _ => cases allowed
  · rintro l' r ⟨s, ⟨kept, known⟩, answered, -⟩
    refine ⟨kept, ?_⟩
    rintro check use rfl
    obtain ⟨claim, manager', intent', won, same, useKey, digest⟩ := answered
    cases same
    exact ⟨claim, known claim won, rfl, useKey, digest⟩

/-- A risk that is not high leaves a decision that stands. -/
theorem Admits.tiered {policy : SpendPolicy} {result : PolicyResult} {assessment : RiskAssessment}
    (admits : Admits platform intent policy result) (bearable : assessment.tier ≠ .high) :
    Admits platform intent policy (applyRiskTier result assessment) := by
  unfold applyRiskTier
  split
  · exact admits
  · rename_i high
    exact absurd high bearable
  · refine ⟨?_, admits.ruled, admits.policyId, admits.policyVersion⟩
    rw [if_neg admits.undenied]
    exact PolicyDecision.noConfusion

namespace VadunoGuard

theorem consumeStage_launches {replayed : Bool} (ready : l.Ready platform guard intent)
    (budgeted : replayed = false → l.Budgeted platform intent)
    (mandated : replayed = true → (guard.requireMandate || truthy intent.mandateId) = true) :
    (guard.consumeStage platform mode intent finalStance reservationId replayed).Meets
      (Launch.monitor platform guard intent) (Launch.Paid platform guard intent) l := by
  have release : (releaseIfOurs (if replayed then none else some reservationId)).Asks isHarmless anything :=
    releaseIfOurs_beside.widen fun _ => isHarmless_of_isBeside
  unfold consumeStage
  by_cases needed : (guard.requireMandate || truthy intent.mandateId) = true
  · simp only [if_pos needed]
    cases guard.mandates with
    | none => trivial
    | some manager =>
      refine Meets.bind (consumeOnce_launches ready.inside) ?_ fun _ _ _ => trivial
      rintro l' outcome ⟨⟨claimed, rfl⟩, claims⟩
      cases outcome with
      | rejected check => exact harmless_bind release fun l _ => deny_launches (denyInternal_asks _)
      | replayed claim digestMatches =>
        refine harmless_bind release fun l _ => ?_
        split_ifs
        · trivial
        · exact deny_launches (denyInternal_asks _)
      | consumed check use =>
        change Meets _ _ (ite _ _ _) _
        split_ifs with seen
        · refine harmless_bind (settleConsumed_beside.widen fun _ => isHarmless_of_isBeside) fun l _ => ?_
          exact audited_launches
        · have still : Launch.Ready platform guard intent { l with claimed := claimed } :=
            ⟨ready.inside, ready.received, ready.unfrozen, ready.decided, ready.unrevoked⟩
          have taken := budgeted (Bool.not_eq_true _ ▸ seen)
          exact launchStage_launches ready.inside (still.cleared taken fun _ => claims check use rfl)
  · simp only [if_neg needed]
    have own : replayed = false := by
      by_contra seen
      exact needed (mandated (Bool.not_eq_false _ ▸ seen))
    exact launchStage_launches ready.inside (ready.cleared (budgeted own) fun unmet => absurd unmet needed)

theorem replayedResult_launches : (replayedResult intent state).Meets (Launch.monitor platform guard intent)
    (Launch.Paid platform guard intent) l := by
  unfold replayedResult
  rcases state with _ | _ | _
  · trivial
  · trivial
  · exact harmless_bind (orThrow_asks (ask_asks trivial)) fun _ _ => trivial

theorem reserveStage_launches (ready : l.Ready platform guard intent) :
    (guard.reserveStage platform mode intent finalStance).Meets (Launch.monitor platform guard intent)
      (Launch.Paid platform guard intent) l := by
  obtain ⟨policy, result, known, decided⟩ := ready.decided
  have weighs : ∀ op, isWeighing op → (Launch.monitor platform guard intent).Quiet l op :=
    fun _ => quiet_weighing ready.inside known
  unfold reserveStage
  refine Meets.bind ((ask_asks trivial).meets weighs) ?_ fun _ _ _ => trivial
  rintro l₁ current ⟨same, -⟩
  rw [same]
  refine Meets.bind ((ask_asks trivial).meets weighs) ?_ fun _ _ _ => trivial
  rintro l₂ nowMs ⟨same, -⟩
  rw [same]
  refine meets_orThrow_bind.mpr ⟨trivial, ?_⟩
  rintro answered l' rfl
  rw [Launch.advance, if_pos ready.inside]
  rcases answered with thrown | (⟨reservationId, replayed, state⟩ | violation)
  · trivial
  · change Meets _ _ (ite _ _ _) _
    cases replayed with
    | false =>
      rw [if_neg (by simp)]
      have still : ∀ request, Launch.Ready platform guard intent { l with reserved := some request } :=
        fun _ => ⟨ready.inside, ready.received, ready.unfrozen, ready.decided, ready.unrevoked⟩
      exact consumeStage_launches (still _) (fun _ => ⟨_, rfl, rfl, rfl, rfl⟩) fun seen => by cases seen
    | true =>
      split_ifs with unmandated
      · exact replayedResult_launches
      · refine consumeStage_launches ready (fun own => by cases own) fun _ => ?_
        rw [Bool.true_and, Bool.not_eq_true, Bool.not_eq_false'] at unmandated
        exact unmandated
  · exact deny_launches (denyInternal_asks _)

theorem revocationStage_launches {policy : SpendPolicy} (inside : l.inside = true) (received : l.received = true)
    (unfrozen : l.frozen = false) (known : l.policy = some policy) (admits : Admits platform intent policy finalStance)
    (approved : finalStance.decision = .requireApproval → l.approved = true) :
    (guard.revocationStage platform mode intent finalStance).Meets (Launch.monitor platform guard intent)
      (Launch.Paid platform guard intent) l := by
  unfold revocationStage append
  refine meets_orThrow_bind.mpr ⟨trivial, ?_⟩
  rintro appended l' rfl
  rw [Launch.advance, if_pos inside]
  cases appended with
  | error e => trivial
  | ok _ =>
    have decided : Launch.Decided platform intent { l with decided := some (decisionData finalStance) } :=
      ⟨policy, finalStance, known, admits, rfl, approved⟩
    change Meets _ _ (ite _ _ _) _
    split_ifs with checks
    · refine (meets_bind _ _ _).mpr ⟨trivial, ?_⟩
      rintro checked l' rfl
      cases checked with
      | error err => exact harmless_bind (settled_asks _) fun l text => deny_launches (denyInternal_asks _)
      | ok verdict =>
        cases verdict with
        | refused code message => exact deny_launches (denyInternal_asks _)
        | allowed =>
          refine reserveStage_launches ?_
          change Launch.Ready _ _ _ (if l.inside = true then _ else _)
          rw [if_pos inside]
          exact ⟨inside, received, unfrozen, decided, fun _ => rfl⟩
    · exact reserveStage_launches ⟨inside, received, unfrozen, decided, fun needed => absurd needed checks⟩

theorem commit_launches {approved : Bool} :
    (guard.commit platform mode intent approved).Meets (Launch.monitor platform guard intent)
      (Launch.Paid platform guard intent) { Launch.heard approved with inside := true } := by
  unfold commit
  refine (meets_bind _ _ _).mpr ⟨trivial, ?_⟩
  rintro frozen l rfl
  cases frozen with
  | some reason => exact audited_launches
  | none =>
    refine (meets_bind _ _ _).mpr ⟨trivial, ?_⟩
    rintro policy l rfl
    let l : Launch := { Launch.heard approved with inside := true, policy := some policy }
    have known : l.policy = some policy := rfl
    change (evaluatePolicy platform intent policy guard.countsMerchants >>= _).Meets _ _ l
    have weighs : ∀ op, isWeighing op → (Launch.monitor platform guard intent).Quiet l op :=
      fun _ => quiet_weighing rfl rfl
    refine Meets.bind (evaluatePolicy_admits.meets weighs) ?_ fun _ _ _ => trivial
    rintro l' result ⟨same, admitted⟩
    rw [same]
    split
    · exact deny_launches denyRecorded_asks
    · exact deny_launches denyRecorded_asks
    · rename_i undenied unasked
      have admits := admitted result rfl undenied
      split
      · refine revocationStage_launches rfl rfl rfl known admits fun needed => ?_
        exact Bool.eq_true_of_not_eq_false (unasked needed)
      · refine Meets.bind (scoreRisk_weighs.meets weighs) ?_ fun _ _ _ => trivial
        rintro l' scored ⟨same, -⟩
        rw [same]
        cases scored with
        | unscorable message => exact deny_launches (denyInternal_asks _)
        | scored assessment =>
          change Meets _ _ (ite _ _ _) _
          split_ifs with high unapproved
          · exact refuse_launches (denyRiskHigh_asks.widen fun _ => isHarmless_of_isDeciding)
          · exact deny_launches denyRecorded_asks
          · refine revocationStage_launches rfl rfl rfl known (admits.tiered high) fun needed => ?_
            simpa [l, Launch.heard, needed] using unapproved

/-! ### The way there -/

theorem exclusive_launches {p : Program GuardResult} {approved : Bool}
    (launches : p.Meets (Launch.monitor platform guard intent) (Launch.Paid platform guard intent)
      { Launch.heard approved with inside := true }) :
    (exclusive .critical p).Meets (Launch.monitor platform guard intent) (Launch.Paid platform guard intent)
      (.heard approved) := by
  rw [meets_exclusive]
  refine ⟨trivial, ?_⟩
  rintro _ l rfl
  refine launches.mono fun l r paid => ⟨trivial, ?_⟩
  rintro _ l' rfl
  have kept : l.Cleared platform guard intent ∧ l.started = true →
      (l.advance (.leave .critical) ()).Cleared platform guard intent ∧
        (l.advance (.leave .critical) ()).started = true := by
    rintro ⟨cleared, started⟩
    unfold Launch.advance
    split_ifs
    · exact ⟨⟨cleared.received, cleared.unfrozen, cleared.decided, cleared.unrevoked, cleared.budgeted,
        cleared.mandated⟩, started⟩
    · exact ⟨cleared, started⟩
  cases r with
  | error e => trivial
  | ok result =>
    cases result with
    | executed | failed | authorized =>
      obtain ⟨cleared, started⟩ := kept ⟨paid.1, paid.2.1⟩
      exact ⟨cleared, started, paid.2.2⟩
    | _ => trivial

/-- Where an approval leads that was obtained. -/
def Granted (l : Launch) : Throwing (Option GuardResult) → Prop
  | .ok none => l = .heard true
  | r => WithoutApproval r

theorem obtainApproval_launches {stance : PolicyResult} :
    (guard.obtainApproval intent stance).Meets (Launch.monitor platform guard intent) Granted (.heard false) := by
  unfold obtainApproval append
  by_cases unhandled : (!guard.approvalHandler) = true
  · rw [if_pos unhandled]
    refine Meets.bind (harmless_meets (denyRecorded_asks.widen fun _ denying =>
      isHarmless_of_isDeciding (isDeciding_of_isDenying denying))) ?_ fun _ _ _ => trivial
    intro l result refused
    cases result with
    | denied => trivial
    | _ => cases refused
  · rw [if_neg unhandled]
    refine meets_orThrow_bind.mpr ⟨trivial, ?_⟩
    rintro requested l rfl
    cases requested with
    | error e => trivial
    | ok _ =>
      refine meets_orThrow_bind.mpr ⟨trivial, ?_⟩
      rintro requestedAt l rfl
      cases requestedAt with
      | error e => trivial
      | ok requestedAt =>
        refine meets_orThrow_bind.mpr ⟨trivial, ?_⟩
        rintro response l rfl
        cases response with
        | error e => trivial
        | ok response =>
          refine meets_orThrow_bind.mpr ⟨trivial, ?_⟩
          rintro resolved l rfl
          cases resolved with
          | error e => trivial
          | ok _ =>
            rcases response with ⟨recorded, e | yes⟩
            · trivial
            · cases yes with
              | true => exact rfl
              | false => trivial

theorem approvalStage_launches {stance : PolicyResult} :
    (guard.approvalStage platform mode intent stance).Meets (Launch.monitor platform guard intent)
      (Launch.Paid platform guard intent) (.heard false) := by
  unfold approvalStage
  split_ifs
  · refine Meets.bind obtainApproval_launches ?_ fun _ _ _ => trivial
    intro l answer granted
    cases answer with
    | none =>
      rw [show l = .heard true from granted]
      exact exclusive_launches commit_launches
    | some result =>
      cases result with
      | approvalRejected | denied => trivial
      | _ => cases granted
  · exact exclusive_launches commit_launches

theorem outside_launch :
    Outside (Launch.monitor platform guard intent) (Launch.Paid platform guard intent) (.heard false) where
  quiet op deciding := by
    refine ⟨allowed_of_isHarmless (isHarmless_of_isDeciding deciding), ?_⟩
    rintro ans l rfl
    cases op with
    | append type data refs =>
      cases type with
      | intentReceived => cases ans <;> rfl
      | approvalResolved => cases deciding
      | _ => rfl
    | enter _ | requestApproval _ => cases deciding
    | _ => rfl
  refused _ refused := Launch.paid_of_refused refused
  rejected _ _ := trivial

theorem receive_launches {rest : Program GuardResult}
    (launches : rest.Meets (Launch.monitor platform guard intent) (Launch.Paid platform guard intent) (.heard false)) :
    (receive refs received rest).Meets (Launch.monitor platform guard intent) (Launch.Paid platform guard intent)
      .start := by
  unfold receive
  refine (meets_bind _ _ _).mpr ⟨trivial, ?_⟩
  rintro appended l rfl
  cases appended with
  | ok _ => exact launches
  | error err =>
    exact harmless_bind (ask_asks trivial) fun l policy => harmless_bind (settled_asks _) fun l text => trivial

theorem run_launches {intake : Intake} (pays : intake.Pays intent) :
    (guard.run platform mode intake).Meets (Launch.monitor platform guard intent) (Launch.Paid platform guard intent)
      .start := by
  unfold run
  cases intake with
  | unclonable intentId agentId => exact audited_launches
  | malformed intentId agentId received reasons =>
    refine receive_launches (harmless_bind (ask_asks trivial) fun l policy => ?_)
    exact harmless_bind ((appendBestEffort_asks trivial trivial).mono fun _ _ _ => trivial) fun _ _ => trivial
  | unidentified intentId agentId received offenders => exact receive_launches audited_launches
  | sound received payment =>
    obtain rfl := pays received payment rfl
    refine receive_launches ((meets_tryCatch _ _ _).mpr ?_)
    refine (outside_launch.gateStage fun stance _ => approvalStage_launches).mono fun l r paid => ?_
    cases r with
    | ok result => exact paid
    | error err => exact harmless_bind (settled_asks _) fun l text => audited_launches

end VadunoGuard

/-- Whatever is submitted, whatever the outside answers and in whatever order: a call records the start of a payment,
runs the rail, and says that it paid or promised to, only for what was submitted and only once it is cleared. -/
theorem payments_are_cleared (platform : Platform) (guard : VadunoGuard) (mode : Mode) (submitted : Submitted)
    (intent : PaymentIntent) (pays : ∀ intake, submitted.enter platform = .ok intake → intake.Pays intent) :
    (guard.submit platform mode submitted).Meets (Launch.monitor platform guard intent)
      (Launch.Paid platform guard intent) .start := by
  unfold VadunoGuard.submit
  cases read : submitted.enter platform with
  | error e => trivial
  | ok intake => exact VadunoGuard.run_launches (pays intake read)

/-! ### A payment that is approved -/

namespace Launch.Sample

def paying : VadunoGuard := ⟨none, false, false, true, true, none, true, true⟩

def payer : PaymentIntent := { Vaduno.Sample.intent "i-1" with mandateId := none }

def policy : SpendPolicy := { Vaduno.Sample.policy with approval := ⟨.undefined, true⟩ }

def answer : (op : Op) → op.Answer
  | .policy => policy
  | .requestApproval _ => .ok ⟨.null, .ok true⟩
  | .checkRevocation _ => .ok .allowed
  | .reserve request => .ok (.ok request.reservationId false none)
  | .runExecutor _ => .ok .null
  | op => Vaduno.Sample.outside op

def called : Program GuardResult := paying.submit Vaduno.Sample.platform .execute (.cloned (.sound .null payer))

def played : Throwing GuardResult × Launch := called.follow (fun l op => (answer op, l.advance op (answer op))) .start

def isExecuted : Throwing GuardResult → Bool
  | .ok (.executed ..) => true
  | _ => false

theorem executed : isExecuted played.1 = true := by decide +kernel

theorem payment_cleared : played.2.Cleared Vaduno.Sample.platform paying payer ∧ played.2.started = true := by
  have paid : played.2.Paid Vaduno.Sample.platform paying payer played.1 :=
    (payments_are_cleared Vaduno.Sample.platform paying .execute (.cloned (.sound .null payer)) payer
      (by rintro _ ⟨⟩ _ _ ⟨⟩; rfl)).follow fun _ _ => rfl
  have ran := executed
  cases result : played.1 with
  | error e =>
    rw [result] at ran
    cases ran
  | ok result' =>
    rw [result] at ran paid
    cases result' with
    | executed => exact ⟨paid.1, paid.2.1⟩
    | _ => cases ran

end Launch.Sample
end Vaduno.Guard
