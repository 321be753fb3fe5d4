import Vaduno.Guard.Exceptions
import Vaduno.Sample

/-! Whether a call settles with a result, and whether the result says that the rail ran. Both hold in an
outside that throws nothing without a text, and whose clock can be written down once the rail has run. -/
namespace Vaduno.Guard
open Ecma Enforce Mandate Policy Ledger Async Program

/-- Rows whose failure is thrown, at least where they are not written as a best effort. -/
def isHard : EntryType → Bool
  | .executionResult | .guardFrozen => false
  | _ => true

/-- What the outside may answer before and after the rail has run. What a best effort swallows may be
anything; what is reported in a message may throw once more, which the pipeline catches. -/
def Answers (ran : Prop) : (op : Op) → op.Answer → Prop
  | .policy, policy => TamePolicy policy
  | .mandateState _, known => ∀ state ∈ known, TameMandate state.mandate
  | .nowIso, text => Names text ∧ (ran → ∃ t, text = .ok t)
  | .commitSpend _, _ | .releaseSpend _, _ | .settleClaim .., _ => True
  | .append type _ _, appended => isHard type = true → Names appended
  | .ledgerAll, entries => ∀ err, entries = .error err → Names (errMsg err)
  | .checkRevocation _, verdict => ∀ err, verdict = .error err → Names (errMsg err)
  | .requestApproval _, response => Names response ∧ ∀ r, response = .ok r → Names r.approved
  | .totalsSince .., totals => Names totals
  | .merchantCountSince .., count => Names count
  | .reserve _, answered => Names answered
  | .getClaim .., found => Names found
  | .claimUse .., claimed => Names claimed
  | .runExecutor _, outcome => Names outcome
  | _, _ => True

def isRail : Op → Prop
  | .runExecutor _ => True
  | _ => False

/-- The phase says that the rail was asked to run. -/
def world : Monitor Op.Answer Prop where
  allowed _ _ := True
  step ran op ans ran' := Answers ran op ans ∧ ran' = (ran ∨ isRail op)

/-- A part that leaves the rail alone, and throws nothing without a text. -/
def Safe (post : α → Prop) (p : Program α) : Prop :=
  p.Meets world (fun ran r => ran = False ∧ Names r ∧ ∀ a, r = .ok a → post a) False

/-- What a call that settled says of the rail. -/
def Truthful (ran : Prop) : GuardResult → Prop
  | .executed .. | .failed .. => ran
  | _ => ¬ran

/-- What is so before the pipeline's own handler: an exception has a text, and the rail has not run. -/
def Fits (ran : Prop) : Throwing GuardResult → Prop
  | .ok result => Truthful ran result
  | .error e => ¬ran ∧ Named e

namespace Safe
variable {post : α → Prop} {mid : β → Prop}

theorem mono {post' : α → Prop} {p : Program α} (safe : Safe post p) (weaker : ∀ a, post a → post' a) :
    Safe post' p :=
  Meets.mono safe fun _ _ settled => ⟨settled.1, settled.2.1, fun a same => weaker a (settled.2.2 a same)⟩

theorem pure {a : α} (settled : post a) : Safe post (Pure.pure a : Program α) :=
  ⟨rfl, .ok _, by rintro _ ⟨⟩; exact settled⟩

theorem settled {r : Throwing α} (names : Names r) (value : ∀ a, r = .ok a → post a) :
    Safe post (Async.settled r : Program α) := ⟨rfl, names, value⟩

theorem throws {e : Thrown} (named : Named e) : Safe post (throw e : Program α) :=
  ⟨rfl, .of_named named, nofun⟩

theorem bind {p : Program β} {f : β → Program α} (first : Safe mid p) (rest : ∀ b, mid b → Safe post (f b)) :
    Safe post (p >>= f) := by
  refine Meets.bind first ?_ ?_
  · rintro _ b ⟨rfl, -, value⟩
    exact rest b (value b rfl)
  · rintro _ e ⟨rfl, names, -⟩
    exact ⟨rfl, .of_named (names e rfl), nofun⟩

/-- The last part of a pipeline, after a safe one. -/
theorem then_fits {p : Program β} {f : β → Program GuardResult} (first : Safe mid p)
    (rest : ∀ b, mid b → (f b).Meets world Fits False) : (p >>= f).Meets world Fits False := by
  refine Meets.bind first ?_ ?_
  · rintro _ b ⟨rfl, -, value⟩
    exact rest b (value b rfl)
  · rintro _ e ⟨rfl, names, -⟩
    exact ⟨id, names e rfl⟩

theorem tryCatch {p : Program α} {handler : Thrown → Program α} (body : Safe post p)
    (caught : ∀ e, Named e → Safe post (handler e)) : Safe post (MonadExcept.tryCatch p handler) := by
  refine Meets.tryCatch body ?_ ?_
  · rintro _ a ⟨rfl, -, value⟩
    exact ⟨rfl, .ok _, value⟩
  · rintro _ e ⟨rfl, names, -⟩
    exact caught e (names e rfl)

theorem ask {op : Op} (other : ¬isRail op) : Safe (fun ans => Answers False op ans) (Program.ask op) := by
  refine ⟨trivial, fun ans ran moved => ⟨?_, .ok _, ?_⟩⟩
  · rw [moved.2, propext (iff_false_intro other), or_false]
  · rintro _ ⟨⟩
    exact moved.1

theorem orThrow {p : Program (Throwing α)} (first : Safe (fun r => Names r ∧ ∀ a, r = .ok a → post a) p) :
    Safe post (Program.orThrow p) := first.bind fun _ answered => settled answered.1 answered.2

/-- An operation that fails by throwing. -/
theorem asked {p : Program (Throwing α)} {post : Throwing α → Prop} (first : Safe post p)
    (names : ∀ r, post r → Names r) : Safe (fun _ => True) (Program.orThrow p) :=
  orThrow (first.mono fun r answered => ⟨names r answered, fun _ _ => trivial⟩)

end Safe

/-- A part that cannot fail and leaves the rail alone. -/
def Steady (ran : Prop) (p : Program α) : Prop := p.Meets world (fun ran' r => ran' = ran ∧ ∃ a, r = .ok a) ran

namespace Steady
variable {ran : Prop}

theorem ask {op : Op} (other : ¬isRail op) : Steady ran (Program.ask op) :=
  ⟨trivial, fun ans _ moved => ⟨moved.2.trans (propext (or_iff_left other)), ans, rfl⟩⟩

/-- What a best effort swallows. -/
theorem bestEffort {p : Program (Throwing α)} {handler : Thrown → Program α} (asked : Steady ran p)
    (handled : ∀ e, Steady ran (handler e)) : Steady ran (tryCatch (orThrow p) handler) := by
  refine (meets_tryCatch _ _ _).mpr ((meets_orThrow _ _).mpr (Meets.mono asked ?_))
  rintro _ _ ⟨rfl, answered, rfl⟩
  cases answered with
  | ok a => exact ⟨rfl, a, rfl⟩
  | error e => exact handled e

theorem bind {post : Prop → Throwing β → Prop} {p : Program α} {f : α → Program β} (first : Steady ran p)
    (rest : ∀ a, (f a).Meets world post ran) : (p >>= f).Meets world post ran := by
  refine Meets.bind first ?_ ?_
  · rintro _ a ⟨rfl, -⟩
    exact rest a
  · rintro _ e ⟨-, _, failed⟩
    cases failed

theorem safe {p : Program α} (steady : Steady False p) : Safe (fun _ => True) p := by
  refine Meets.mono steady ?_
  rintro _ _ ⟨rfl, a, rfl⟩
  exact ⟨rfl, .ok a, fun _ _ => trivial⟩

end Steady

/-- No part of a pipeline that only denies ends with a payment. -/
def Denies (result : GuardResult) : Prop := ∃ intentId policyResult, result = .denied intentId policyResult

theorem Safe.fits {p : Program GuardResult} (safe : Safe Denies p) : p.Meets world Fits False := by
  refine Meets.mono safe ?_
  rintro _ (e | result) ⟨rfl, names, value⟩
  · exact ⟨id, names e rfl⟩
  · obtain ⟨intentId, policyResult, rfl⟩ := value result rfl
    exact id

variable {platform : Platform} {guard : VadunoGuard} {mode : Mode} {intent : PaymentIntent}
  {policy : SpendPolicy}

/-- What the platform and the scorecard of a guard throw. -/
structure TameParts (platform : Platform) (guard : VadunoGuard) : Prop where
  iso : ∀ ms, Names (platform.toISOString ms)
  scorer : ∀ risk ∈ guard.risk, ∀ intent policy entries nowMs e, TamePolicy policy →
    risk.assess intent policy entries nowMs = .error (.broken e) → Named e

/-! ### Rows and denials -/

theorem safe_append (hard : isHard type = true) : Safe (fun _ => True) (append type data refs) :=
  (Safe.ask id).asked fun _ names => names hard

theorem steady_appendBestEffort {ran : Prop} : Steady ran (appendBestEffort type data refs) :=
  .bestEffort (.ask id) fun _ => .ask id

theorem steady_commitBestEffort {ran : Prop} : Steady ran (commitBestEffort reservationId) :=
  .bestEffort (.ask id) fun _ => .ask id

theorem steady_releaseBestEffort {ran : Prop} : Steady ran (releaseBestEffort reservationId) :=
  .bestEffort (.ask id) fun _ => .ask id

/-- A denial that is only recorded if it can be is answered either way. -/
theorem denyAudited_resolves : (denyAudited refs code message).Meets world
    (fun ran r => ran = False ∧ ∃ result, r = .ok result ∧ Denies result) False :=
  (Steady.ask id).bind fun _ => steady_appendBestEffort.bind fun _ => ⟨rfl, _, rfl, _, _, rfl⟩

theorem safe_denyAudited : Safe Denies (denyAudited refs code message) := by
  refine denyAudited_resolves.mono ?_
  rintro _ _ ⟨rfl, result, rfl, denies⟩
  refine ⟨rfl, .ok _, ?_⟩
  rintro _ ⟨⟩
  exact denies

theorem safe_denyRecorded : Safe Denies (denyRecorded intent policyResult) :=
  (safe_append (by rfl)).bind fun _ _ => .pure ⟨_, _, rfl⟩

theorem safe_denyFrozen : Safe Denies (denyFrozen intent reason) := safe_denyAudited

theorem safe_denyInternal (policyResult : SpendPolicy → PolicyResult) :
    Safe Denies (do denyRecorded intent (policyResult (← ask .policy)) : Program GuardResult) :=
  (Safe.ask id).bind fun _ _ => safe_denyRecorded

theorem safe_nowIso : Safe (fun _ => True) nowIso :=
  (Safe.ask id).asked fun _ answered => answered.1

/-! ### Deciding -/

theorem safe_windowAdvice (tame : TameParts platform guard) :
    Safe (fun _ => True) (windowAdvice platform intent policy countsMerchants nowMs w) := by
  unfold windowAdvice
  split
  · exact .pure trivial
  · refine (Safe.settled (tame.iso _) fun _ _ => trivial).bind fun since _ => ?_
    split
    · split
      · exact .pure trivial
      · exact ((Safe.ask id).asked fun _ names => names).bind
          fun _ _ => .pure trivial
    · exact ((Safe.ask id).asked fun _ names => names).bind
        fun _ _ => .pure trivial

theorem safe_windowsAdvice (tame : TameParts platform guard) (windows : List SpendWindow) :
    Safe (fun _ => True) (windowsAdvice platform intent policy countsMerchants nowMs windows) := by
  induction windows with
  | nil => exact .pure trivial
  | cons w rest ih => exact (safe_windowAdvice tame).bind fun _ _ => ih.bind fun _ _ => .pure trivial

theorem safe_evaluatePolicy (tame : TameParts platform guard) (tamePolicy : TamePolicy policy) :
    Safe (fun _ => True) (evaluatePolicy platform intent policy countsMerchants) := by
  unfold evaluatePolicy
  refine (Safe.ask id).bind fun nowMs _ => ?_
  refine (Safe.settled (names_staticReasons tamePolicy nowMs) fun _ _ => trivial).bind fun reasons _ => ?_
  refine (Safe.settled (names_misconfigured tamePolicy) fun _ _ => trivial).bind fun problem _ => ?_
  have decides : ∀ advice : List PolicyReason, Safe (fun _ => True) (if reasons ++ advice ≠ [] then
      return ⟨.deny, reasons ++ advice, policy.id, policy.version⟩
      else Async.settled (approvalDecision platform intent policy) : Program PolicyResult) := fun advice => by
    split
    · exact .pure trivial
    · exact .settled (names_approvalDecision tamePolicy) fun _ _ => trivial
  cases problem with
  | some reason => exact decides [reason]
  | none => exact (safe_windowsAdvice tame _).bind fun advice _ => decides advice

namespace VadunoGuard
variable {scorecard : RiskScorecard}

theorem safe_scoreRisk (scorer : ∀ intent policy entries nowMs e, TamePolicy policy →
    scorecard.assess intent policy entries nowMs = .error (.broken e) → Named e) :
    Safe (fun _ => True) (scoreRisk scorecard intent phase) := by
  unfold scoreRisk
  refine (Safe.ask id).bind fun read answered => ?_
  cases read with
  | error err =>
    exact (Safe.settled (answered err rfl) fun _ _ => trivial).bind fun _ _ => .pure trivial
  | ok entries =>
    refine (Safe.ask id).bind fun policy tamePolicy => (Safe.ask id).bind fun nowMs _ => ?_
    cases scored : scorecard.assess intent policy entries nowMs with
    | error failure =>
      cases failure with
      | unscorable message => exact .pure trivial
      | broken thrown => exact .throws (scorer _ _ _ _ _ tamePolicy scored)
    | ok assessment =>
      exact (safe_append (by rfl)).bind fun _ _ => .pure trivial

theorem safe_freeze : Safe (fun _ => True) (freeze reason autoFreeze) := by
  refine (Safe.ask id).bind fun _ _ => Steady.safe ?_
  exact .bestEffort (.ask id) fun _ => .ask id

theorem safe_denyRiskHigh : Safe Denies (denyRiskHigh scorecard intent base assessment) := by
  unfold denyRiskHigh
  cases scorecard.autoFreezeAtScore with
  | none => exact safe_denyRecorded
  | some atScore =>
    change Safe _ (ite _ _ _)
    split_ifs
    · refine (Safe.ask id).bind fun frozen _ => ?_
      split_ifs
      · exact safe_freeze.bind fun _ _ => safe_denyRecorded
      · exact safe_denyRecorded
    · exact safe_denyRecorded

/-! ### The mandate -/

theorem safe_checkState (manager : MandateManager) {state : MandateState} (tame : TameMandate state.mandate)
    (uses : Number) : Safe (fun _ => True) (manager.checkState platform state intent uses) := by
  unfold MandateManager.checkState
  split
  · exact .pure trivial
  · split_ifs
    · exact .pure trivial
    · exact (Safe.ask id).bind fun nowMs _ => .settled (names_checkConstraints tame uses nowMs) fun _ _ => trivial

theorem safe_check (manager : MandateManager) (mandateId : JsString) :
    Safe (fun _ => True) (manager.check platform mandateId intent) := by
  unfold MandateManager.check
  refine (Safe.ask id).bind fun known tame => ?_
  cases known with
  | none => exact .pure trivial
  | some state => exact safe_checkState manager (tame state rfl) _

theorem safe_appendIfLedger (manager : MandateManager) (hard : isHard type = true) :
    Safe (fun _ => True) (manager.appendIfLedger type data intent) := by
  unfold MandateManager.appendIfLedger
  split_ifs
  · exact (Safe.ask id).asked fun _ names => names hard
  · exact .pure trivial

theorem safe_replayOutcome (manager : MandateManager) (claim : UseClaim) :
    Safe (fun _ => True) (manager.replayOutcome mandateId intent claim digest) :=
  (safe_appendIfLedger manager (by rfl)).bind fun _ _ => .pure trivial

theorem safe_consume (manager : MandateManager) {state : MandateState} (tame : TameMandate state.mandate) :
    Safe (fun _ => True) (manager.consume mandateId intent state check digest) := by
  unfold MandateManager.consume
  refine safe_nowIso.bind fun claimedAt _ => ?_
  refine ((Safe.ask id).asked fun _ names => names).bind
    fun claimed _ => ?_
  cases claimed with
  | duplicate existing => exact safe_replayOutcome manager existing
  | exhausted used => exact (Safe.settled tame.uses fun _ _ => trivial).bind fun _ _ => .pure trivial
  | winner used =>
    exact (Safe.ask id).bind fun _ _ =>
      (safe_appendIfLedger manager (by rfl)).bind fun _ _ => .pure trivial

theorem safe_exclusive {post : α → Prop} {p : Program α} (safe : Safe post p) (mutex : Mutex) :
    Safe post (exclusive mutex p) := by
  refine (meets_exclusive _ _ _).mpr ⟨trivial, fun _ ran moved => ?_⟩
  obtain ⟨-, rfl⟩ := moved
  rw [show (False ∨ isRail (.enter mutex)) = False from or_false _]
  refine Meets.mono safe fun ran r settled => ⟨trivial, fun _ ran' moved => ?_⟩
  obtain ⟨-, rfl⟩ := moved
  exact ⟨by rw [settled.1]; exact or_false _, settled.2⟩

theorem safe_consumeOnce (manager : MandateManager) (mandateId : JsString) :
    Safe (fun _ => True) (manager.consumeOnce platform mandateId intent) := by
  refine safe_exclusive ?_ _
  refine (Safe.ask id).bind fun known tame => ?_
  cases known with
  | none => exact .pure trivial
  | some state =>
    refine (Safe.settled (names_intentDigest platform intent) fun _ _ => trivial).bind fun digest _ => ?_
    refine ((Safe.ask id).asked fun _ names => names).bind
      fun prior _ => ?_
    cases prior with
    | some claim => exact safe_replayOutcome manager claim
    | none =>
      refine (safe_checkState manager (tame state rfl) 0).bind fun check _ => ?_
      split_ifs
      · exact safe_consume manager (tame state rfl)
      · exact .pure trivial

theorem safe_mandatePreflightFailure :
    Safe (fun _ => True) (guard.mandatePreflightFailure platform intent) := by
  unfold mandatePreflightFailure
  cases guard.mandates with
  | none => exact (Safe.ask id).bind fun _ _ => .pure trivial
  | some manager =>
    change Safe _ (ite _ _ _)
    split_ifs
    · exact (Safe.ask id).bind fun _ _ => .pure trivial
    · refine (safe_check manager _).bind fun check _ => ?_
      split_ifs
      · exact .pure trivial
      · exact (Safe.ask id).bind fun _ _ => .pure trivial

/-- Approval is not obtained, or asking for it ends the call without a payment. -/
def WithoutPayment (answer : Option GuardResult) : Prop := ∀ result ∈ answer, Truthful False result

theorem safe_obtainApproval : Safe WithoutPayment (guard.obtainApproval intent stance) := by
  have denied : ∀ {result}, Denies result → WithoutPayment (some result) := by
    rintro _ ⟨intentId, policyResult, rfl⟩ _ ⟨⟩
    exact id
  unfold obtainApproval
  split_ifs
  · exact safe_denyRecorded.bind fun _ refused => .pure (denied refused)
  · refine (safe_append (by rfl)).bind fun _ _ => safe_nowIso.bind fun requestedAt _ => ?_
    have named : Safe (fun response => Names response.approved)
        (Program.orThrow (Program.ask (.requestApproval ⟨intent, stance, requestedAt⟩))) :=
      .orThrow (Safe.ask id)
    refine named.bind fun response approved => (safe_append (by rfl)).bind fun _ _ => ?_
    refine (Safe.settled approved fun _ _ => trivial).bind fun given _ => ?_
    split_ifs
    · refine .pure ?_
      rintro _ ⟨⟩
    · refine .pure ?_
      rintro _ ⟨⟩
      exact id

/-! ### Once the rail has run -/

theorem steady_settleBestEffort {ran : Prop} : Steady ran (guard.settleBestEffort mandateId useKey outcome) := by
  unfold settleBestEffort
  cases guard.mandates with
  | none => exact ⟨rfl, _, rfl⟩
  | some manager => exact .bestEffort (.ask id) fun _ => ⟨rfl, _, rfl⟩

theorem safe_settleConsumed : Safe (fun _ => True) (guard.settleConsumed consumed intent outcome) := by
  unfold settleConsumed
  cases consumed with
  | none => exact .pure trivial
  | some mandateId => exact safe_nowIso.bind fun _ _ => steady_settleBestEffort.safe

theorem steady_settleConsumed : Steady True (guard.settleConsumed consumed intent outcome) := by
  unfold settleConsumed
  cases consumed with
  | none => exact ⟨rfl, _, rfl⟩
  | some mandateId =>
    refine (meets_bind _ _ _).mpr ((meets_orThrow _ _).mpr ⟨trivial, fun text ran moved => ?_⟩)
    obtain ⟨⟨-, written⟩, rfl⟩ := moved
    obtain ⟨t, rfl⟩ := written trivial
    rw [show (True ∨ isRail .nowIso) = True from true_or _]
    exact steady_settleBestEffort

theorem safe_releaseIfOurs : Safe (fun _ => True) (releaseIfOurs ours) := by
  unfold releaseIfOurs
  split_ifs
  · exact steady_releaseBestEffort.safe
  · exact .pure trivial

theorem recordFailure_fits (named : Named err) :
    (guard.recordFailure intent finalStance recorded consumed err).Meets world Fits True := by
  obtain ⟨message, text⟩ := named
  unfold recordFailure
  rw [show errMsg err = .ok message from text]
  exact steady_appendBestEffort.bind fun _ => steady_settleConsumed.bind fun _ => trivial

theorem reportExecuted_fits : (reportExecuted intent finalStance recorded value).Meets world Fits True := by
  unfold reportExecuted
  refine (Steady.ask id).bind fun appended => ?_
  cases appended with
  | ok _ => exact trivial
  | error _ => exact (Steady.ask id).bind fun _ => trivial

theorem recordSuccess_fits :
    (guard.recordSuccess intent finalStance recorded reservationId consumed value).Meets world Fits True := by
  unfold recordSuccess
  have reports : (do
      guard.settleConsumed consumed intent fun settledAt => ⟨.executed, settledAt, none⟩
      reportExecuted intent finalStance recorded value : Program GuardResult).Meets world Fits True :=
    steady_settleConsumed.bind fun _ => reportExecuted_fits
  refine steady_commitBestEffort.bind fun _ => ?_
  split_ifs
  · exact (Steady.ask id).bind fun _ => (Steady.ask id).bind fun _ => reports
  · exact reports

theorem executeStage_fits :
    (guard.executeStage intent finalStance recorded reservationId consumed).Meets world Fits False := by
  unfold executeStage
  refine (safe_append (by rfl)).then_fits fun _ _ => (meets_bind _ _ _).mpr ⟨trivial, fun outcome ran moved => ?_⟩
  obtain ⟨names, rfl⟩ := moved
  rw [show (False ∨ isRail (.runExecutor intent)) = True from propext (or_iff_right id |>.trans Iff.rfl)]
  cases outcome with
  | error err => exact recordFailure_fits (names err rfl)
  | ok value => exact recordSuccess_fits

theorem launchStage_fits :
    (guard.launchStage platform mode intent finalStance reservationId ours consumed).Meets world Fits False := by
  unfold launchStage
  refine (Safe.ask id).then_fits fun frozen _ => ?_
  cases frozen with
  | some reason =>
    exact (safe_releaseIfOurs.bind fun _ _ => safe_settleConsumed.bind fun _ _ => safe_denyFrozen).fits
  | none =>
    cases mode with
    | authorize => exact (safe_append (by rfl)).then_fits fun _ _ => id
    | execute => exact executeStage_fits

theorem replayedResult_fits : (replayedResult intent state).Meets world Fits False := by
  unfold replayedResult
  rcases state with _ | _ | _
  · exact id
  · exact id
  · exact safe_nowIso.then_fits fun _ _ => id

theorem consumeStage_fits :
    (guard.consumeStage platform mode intent finalStance reservationId replayed).Meets world Fits False := by
  unfold consumeStage
  generalize (if replayed then none else some reservationId) = ours
  by_cases mandated : (guard.requireMandate || truthy intent.mandateId) = true
  · cases known : guard.mandates with
    | none =>
      simp only [if_pos mandated]
      exact ⟨id, named_typeError⟩
    | some manager =>
      simp only [if_pos mandated]
      refine (safe_consumeOnce manager _).then_fits fun outcome _ => ?_
      cases outcome with
      | rejected check => exact (safe_releaseIfOurs.bind fun _ _ => safe_denyInternal _).fits
      | replayed claim digestMatches =>
        refine safe_releaseIfOurs.then_fits fun _ _ => ?_
        split_ifs
        · exact id
        · exact (safe_denyInternal _).fits
      | consumed check use =>
        change Meets _ _ (ite _ _ _) _
        split_ifs
        · exact (safe_settleConsumed.bind fun _ _ => safe_denyAudited).fits
        · exact launchStage_fits
  · simp only [if_neg mandated]
    exact launchStage_fits

theorem reserveStage_fits : (guard.reserveStage platform mode intent finalStance).Meets world Fits False := by
  unfold reserveStage
  refine (Safe.ask id).then_fits fun policy _ => (Safe.ask id).then_fits fun nowMs _ => ?_
  refine ((Safe.ask id).asked fun _ names => names).then_fits fun answered _ => ?_
  cases answered with
  | refused violation => exact (safe_denyInternal _).fits
  | ok reservationId replayed state =>
    change Meets _ _ (ite _ _ _) _
    split_ifs
    · exact replayedResult_fits
    · exact consumeStage_fits

theorem revocationStage_fits :
    (guard.revocationStage platform mode intent finalStance).Meets world Fits False := by
  unfold revocationStage
  refine (safe_append (by rfl)).then_fits fun _ _ => ?_
  split_ifs
  · refine (Safe.ask id).then_fits fun checked answered => ?_
    cases checked with
    | ok verdict =>
      cases verdict with
      | allowed => exact reserveStage_fits
      | refused code message => exact (safe_denyInternal _).fits
    | error err =>
      refine (Safe.settled (answered err rfl) fun _ _ => trivial).then_fits fun text _ => ?_
      exact (safe_denyInternal _).fits
  · exact reserveStage_fits

theorem commit_fits (tame : TameParts platform guard) :
    (guard.commit platform mode intent approved).Meets world Fits False := by
  unfold commit
  refine (Safe.ask id).then_fits fun frozen _ => ?_
  cases frozen with
  | some reason => exact safe_denyFrozen.fits
  | none =>
    refine (Safe.ask id).then_fits fun policy tamePolicy =>
      (safe_evaluatePolicy tame tamePolicy).then_fits fun result _ => ?_
    split
    · exact safe_denyRecorded.fits
    · exact safe_denyRecorded.fits
    · split
      · exact revocationStage_fits
      · rename_i risk known
        refine (safe_scoreRisk (tame.scorer risk known)).then_fits fun scored _ => ?_
        cases scored with
        | unscorable message => exact (safe_denyInternal _).fits
        | scored assessment =>
          change Meets _ _ (ite _ _ _) _
          split_ifs
          · exact safe_denyRiskHigh.fits
          · exact safe_denyRecorded.fits
          · exact revocationStage_fits

theorem exclusive_fits {p : Program GuardResult} (fits : p.Meets world Fits False) (mutex : Mutex) :
    (exclusive mutex p).Meets world Fits False := by
  refine (meets_exclusive _ _ _).mpr ⟨trivial, fun _ ran moved => ?_⟩
  obtain ⟨-, rfl⟩ := moved
  rw [show (False ∨ isRail (.enter mutex)) = False from or_false _]
  refine Meets.mono fits fun ran r settled => ⟨trivial, fun _ ran' moved => ?_⟩
  rw [moved.2, show (ran ∨ isRail (.leave mutex)) = ran from or_false _]
  exact settled

theorem approvalStage_fits (tame : TameParts platform guard) :
    (guard.approvalStage platform mode intent stance).Meets world Fits False := by
  unfold approvalStage
  split_ifs
  · refine safe_obtainApproval.then_fits fun answer without => ?_
    cases answer with
    | none => exact exclusive_fits (commit_fits tame) _
    | some result => exact without result rfl
  · exact exclusive_fits (commit_fits tame) _

theorem preliminaryStage_fits (tame : TameParts platform guard) :
    (guard.preliminaryStage platform mode intent).Meets world Fits False := by
  unfold preliminaryStage
  refine (Safe.ask id).then_fits fun policy tamePolicy =>
    (safe_evaluatePolicy tame tamePolicy).then_fits fun prelim _ => ?_
  split_ifs
  · exact safe_denyRecorded.fits
  · split
    · exact approvalStage_fits tame
    · rename_i risk known
      refine (safe_scoreRisk (tame.scorer risk known)).then_fits fun scored _ => ?_
      cases scored with
      | unscorable message => exact (safe_denyInternal _).fits
      | scored assessment =>
        change Meets _ _ (ite _ _ _) _
        split_ifs
        · exact safe_denyRiskHigh.fits
        · exact approvalStage_fits tame

theorem gateStage_fits (tame : TameParts platform guard) :
    (guard.gateStage platform mode intent).Meets world Fits False := by
  unfold gateStage
  refine (Safe.ask id).then_fits fun hydrateFailed _ => ?_
  cases hydrateFailed with
  | true => exact safe_denyAudited.fits
  | false =>
    change Meets _ _ (_ >>= _) _
    refine (Safe.ask id).then_fits fun hydrated _ => ?_
    by_cases unhydrated : (guard.requireHydration && !hydrated) = true
    · rw [if_pos unhydrated]
      exact safe_denyAudited.fits
    · rw [if_neg unhydrated]
      refine (Safe.ask id).then_fits fun frozen _ => ?_
      cases frozen with
      | some reason => exact safe_denyFrozen.fits
      | none =>
        change Meets _ _ (ite _ _ _) _
        split_ifs
        · refine safe_mandatePreflightFailure.then_fits fun failure _ => ?_
          cases failure with
          | none => exact preliminaryStage_fits tame
          | some failure => exact safe_denyRecorded.fits
        · exact preliminaryStage_fits tame

/-! ### The whole call -/

/-- A call settles with a result, which says whether the rail ran. -/
def Resolves (ran : Prop) (r : Throwing GuardResult) : Prop := ∃ result, r = .ok result ∧ Truthful ran result

theorem resolves_of_denied {p : Program GuardResult} (denied : p.Meets world
    (fun ran r => ran = False ∧ ∃ result, r = .ok result ∧ Denies result) False) : p.Meets world Resolves False := by
  refine denied.mono ?_
  rintro _ _ ⟨rfl, _, rfl, intentId, policyResult, rfl⟩
  exact ⟨_, rfl, id⟩

theorem receive_resolves {rest : Program GuardResult} (resolves : rest.Meets world Resolves False) :
    (receive refs received rest).Meets world Resolves False := by
  unfold receive
  refine (meets_bind _ _ _).mpr ⟨trivial, fun appended ran moved => ?_⟩
  obtain ⟨names, rfl⟩ := moved
  rw [show (False ∨ isRail (.append .intentReceived received refs)) = False from or_false _]
  cases appended with
  | ok _ => exact resolves
  | error err =>
    obtain ⟨text, named⟩ := names rfl err rfl
    refine (Steady.ask id).bind fun policy => ?_
    rw [show errMsg err = .ok text from named]
    exact ⟨_, rfl, id⟩

theorem run_resolves (tame : TameParts platform guard) (intake : Intake) :
    (guard.run platform mode intake).Meets world Resolves False := by
  unfold run
  cases intake with
  | unclonable intentId agentId => exact resolves_of_denied denyAudited_resolves
  | malformed intentId agentId received reasons =>
    refine receive_resolves ((Steady.ask id).bind fun policy => ?_)
    exact steady_appendBestEffort.bind fun _ => ⟨_, rfl, id⟩
  | unidentified intentId agentId received offenders =>
    exact receive_resolves (resolves_of_denied denyAudited_resolves)
  | sound received intent =>
    refine receive_resolves (Meets.tryCatch (gateStage_fits tame) ?_ ?_)
    · exact fun _ result truthful => ⟨result, rfl, truthful⟩
    · rintro ran err ⟨unrun, text, named⟩
      obtain rfl : ran = False := propext (iff_false_intro unrun)
      change Meets _ _ (_ >>= _) _
      rw [show errMsg err = .ok text from named]
      exact resolves_of_denied denyAudited_resolves

end VadunoGuard

/-! ### The entry -/

/-- A property of a value that could not be cloned, as reading it goes: its getter or a proxy can throw, and a
proxy that was revoked throws when it is asked for its class. -/
inductive Peeked
  | threw (thrown : Thrown)
  | value (v : JsValue)
  | date (ms : Number)
  | revoked

/-- A value with its type, cut to a bounded length. -/
def tagged (type text : JsString) : JsString :=
  "(" ++ type ++ " " ++ (if 120 < text.length then text.take 120 ++ "…" else text) ++ ")"

/-- The text that an id is indexed by. -/
def refString (platform : Platform) : Peeked → Throwing JsString
  | .threw thrown => .error thrown
  | .revoked => .error .typeError
  | .date ms => if ms.isNaN then .ok "(date invalid)" else return "(date " ++ (← platform.toISOString ms) ++ ")"
  | .value (.string s) => .ok s
  | .value .null => .ok "(null)"
  | .value .undefined => .ok "(undefined)"
  | .value (.number n) => .ok (tagged "number" n.toText)
  | .value (.boolean b) => .ok (tagged "boolean" (if b then "true" else "false"))
  | .value (.bigint n) => .ok (tagged "bigint" (intText n))
  | .value .symbol => .ok "(symbol)"
  | .value (.foreign none _ _) => .ok "(function)"
  | .value (.array _) | .value (.object _) | .value (.foreign (some _) _ _) => .ok "(object)"

/-- What was passed as the intent. -/
inductive Submitted
  /-- `null` or `undefined`, of which there is a clone without properties. -/
  | nullish
  /-- What cannot be cloned is denied by what its `id` and `agentId` are read as. -/
  | uncloneable (id agentId : Peeked)
  /-- A clone, after the inspection of its shape and of its identity. -/
  | cloned (intake : Intake)

/-- What the entry makes of it, unless reading it throws: nothing catches that. -/
def Submitted.enter (platform : Platform) : Submitted → Throwing Intake
  | .nullish => .error .typeError
  | .uncloneable id agentId => return .unclonable (← refString platform id) (← refString platform agentId)
  | .cloned intake => .ok intake

/-- `execute()` and `authorize()`, from the value that was passed on. -/
def VadunoGuard.submit (platform : Platform) (guard : VadunoGuard) (mode : Mode) (submitted : Submitted) :
    Program GuardResult := do
  guard.run platform mode (← Async.settled (submitted.enter platform))

/-- The entry gets past reading the value. -/
def Submitted.Readable (platform : Platform) (submitted : Submitted) : Prop :=
  ∃ intake, submitted.enter platform = .ok intake

/-- A call settles with a result, and the result says whether the rail ran, in every run of an outside that
throws nothing without a text and whose clock can be written down once the rail has run, exactly where the
value that was passed can be read. -/
theorem submit_resolves_iff (tame : TameParts platform guard) (submitted : Submitted) :
    (guard.submit platform mode submitted).Meets world VadunoGuard.Resolves False ↔ submitted.Readable platform := by
  unfold VadunoGuard.submit Submitted.Readable
  cases read : submitted.enter platform with
  | error e =>
    refine iff_of_false ?_ ?_
    · rintro ⟨_, failed, -⟩
      cases failed
    · rintro ⟨_, same⟩
      cases same
  | ok intake => exact iff_of_true (VadunoGuard.run_resolves tame intake) ⟨intake, rfl⟩

namespace Resolution

/-- Whether a program asks for the rail, where each operation is answered in one way. -/
def runsRail (answer : (op : Op) → op.Answer) : Program α → Bool
  | .done _ => false
  | .await (.runExecutor _) _ => true
  | .await op next => runsRail answer (next (answer op))

def isDenied : GuardResult → Bool
  | .denied .. => true
  | _ => false

def paying : VadunoGuard := ⟨none, false, false, false, false, none, true, true⟩

def payment : Intake := .sound .null { Sample.intent "i-1" with mandateId := none }

/-- An outside whose executor throws an object that has no text. -/
def outside : (op : Op) → op.Answer
  | .reserve request => .ok (.ok request.reservationId false none)
  | .runExecutor _ => .error (.value (.object [("toString", .null)]))
  | op => Sample.outside op

def call (submitted : Submitted) : Program GuardResult := paying.submit Sample.platform .execute submitted

theorem executor_reported_denied : runsRail outside (call (.cloned payment)) = true ∧
    ((call (.cloned payment)).answeredBy outside).toOption.map isDenied = some true := by
  decide +kernel

/-- The call rejects where nothing was passed, and denies a payment whose executor has run. -/
theorem null_rejects : (call .nullish).answeredBy outside = .error .typeError ∧
    runsRail outside (call (.cloned payment)) = true ∧
    ∃ intentId policyResult, (call (.cloned payment)).answeredBy outside = .ok (.denied intentId policyResult) := by
  obtain ⟨ran, denied⟩ := executor_reported_denied
  refine ⟨rfl, ran, ?_⟩
  cases outcome : (call (.cloned payment)).answeredBy outside with
  | error e =>
    rw [outcome] at denied
    cases denied
  | ok result =>
    rw [outcome] at denied
    cases result with
    | denied intentId policyResult => exact ⟨intentId, policyResult, rfl⟩
    | _ => cases denied

theorem tame : TameParts Sample.platform paying where
  iso ms := by
    unfold Sample.platform
    dsimp only
    split_ifs
    · exact .ok _
    · exact .error _
  scorer risk known := by cases known

theorem payment_resolves : (call (.cloned payment)).Meets world VadunoGuard.Resolves False :=
  (submit_resolves_iff tame _).mpr ⟨payment, rfl⟩

end Resolution
end Vaduno.Guard
