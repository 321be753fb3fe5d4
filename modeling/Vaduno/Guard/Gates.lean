import Vaduno.Guard.Preliminary

/-! The way to the critical section. Outside it a call decides, asks for approval and records; whatever a monitor
says of a call, it is enough to look at the critical section and at what a denial does after an exception. -/
namespace Vaduno.Guard
open Ecma Enforce Mandate Policy Ledger Async Program

/-- A guard that needs a mandate for this intent has a manager for it. -/
def Managed (guard : VadunoGuard) (intent : PaymentIntent) : Prop :=
  (guard.requireMandate || truthy intent.mandateId) = true → guard.mandates.isSome

/-- In this phase decisions go unnoticed, and a result that pays nothing is as it should be. -/
structure Outside {Φ : Type} (M : Monitor Op.Answer Φ) (post : Φ → Throwing GuardResult → Prop) (φ : Φ) : Prop where
  quiet : ∀ op, isDeciding op → M.Quiet φ op
  refused : ∀ r, Refused r → post φ r
  rejected : ∀ intentId policyResult, post φ (.ok (.approvalRejected intentId policyResult))

variable {platform : Platform} {guard : VadunoGuard} {mode : Mode} {intent : PaymentIntent} {Φ : Type}
  {M : Monitor Op.Answer Φ} {post : Φ → Throwing GuardResult → Prop} {φ : Φ}

namespace Outside

theorem bind {p : Program α} {f : α → Program GuardResult} (outside : Outside M post φ)
    (first : p.Asks isDeciding anything) (rest : ∀ a, (f a).Meets M post φ) : (p >>= f).Meets M post φ := by
  refine Meets.bind (first.meets outside.quiet) ?_ ?_
  · rintro φ' a ⟨rfl, -⟩
    exact rest a
  · rintro φ' e ⟨rfl, -⟩
    exact outside.refused _ trivial

theorem refuse {p : Program GuardResult} (outside : Outside M post φ) (asks : p.Asks isDeciding Refused) :
    p.Meets M post φ := by
  refine (asks.meets outside.quiet).mono ?_
  rintro φ' r ⟨rfl, refused⟩
  exact outside.refused r refused

theorem deny {p : Program GuardResult} (outside : Outside M post φ) (asks : p.Asks isDenying Refused) :
    p.Meets M post φ :=
  outside.refuse (asks.widen fun _ => isDeciding_of_isDenying)

theorem deny_audited (outside : Outside M post φ) : (denyAudited refs code message).Meets M post φ :=
  outside.deny (denyAudited_asks.mono fun _ _ => Refused.of_denied)

theorem receive {rest : Program GuardResult} (outside : Outside M post φ) (meets : rest.Meets M post φ) :
    (VadunoGuard.receive refs received rest).Meets M post φ := by
  unfold VadunoGuard.receive
  refine outside.bind (ask_asks trivial) fun appended => ?_
  cases appended with
  | ok _ => exact meets
  | error err =>
    exact outside.bind (ask_asks trivial) fun policy => outside.bind (settled_asks _) fun text =>
      outside.refused _ trivial

theorem approvalStage (outside : Outside M post φ) (approving : ∀ op, isApproving op → M.Quiet φ op)
    (commits : ∀ approved, Managed guard intent →
    (exclusive .critical (guard.commit platform mode intent approved)).Meets M post φ)
    (managed : Managed guard intent) :
    (guard.approvalStage platform mode intent stance).Meets M post φ := by
  unfold VadunoGuard.approvalStage
  split_ifs
  · refine Meets.bind (VadunoGuard.obtainApproval_asks.meets fun op => Or.rec (outside.quiet op) (approving op)) ?_ ?_
    · rintro φ' answer ⟨rfl, without⟩
      cases answer with
      | none => exact commits true managed
      | some result =>
        cases result with
        | approvalRejected intentId policyResult => exact outside.rejected intentId policyResult
        | denied intentId policyResult => exact outside.refused _ trivial
        | _ => cases without
    · rintro φ' thrown ⟨rfl, -⟩
      exact outside.refused _ trivial
  · exact commits false managed

section Approvals
variable (outside : Outside M post φ) (approves : ∀ stance, Managed guard intent →
  (guard.approvalStage platform mode intent stance).Meets M post φ)
include outside approves

theorem preliminaryStage (managed : Managed guard intent) :
    (guard.preliminaryStage platform mode intent).Meets M post φ := by
  unfold VadunoGuard.preliminaryStage
  refine outside.bind (ask_asks trivial) fun policy => outside.bind evaluatePolicy_asks fun prelim => ?_
  split_ifs
  · exact outside.deny denyRecorded_asks
  · split
    · exact approves _ managed
    · refine outside.bind VadunoGuard.scoreRisk_asks fun scored => ?_
      cases scored with
      | unscorable message => exact outside.deny (denyInternal_asks _)
      | scored assessment =>
        change Meets _ _ (ite _ _ _) _
        split_ifs
        · exact outside.refuse VadunoGuard.denyRiskHigh_asks
        · exact approves _ managed

theorem gateStage : (guard.gateStage platform mode intent).Meets M post φ := by
  unfold VadunoGuard.gateStage
  refine outside.bind (ask_asks trivial) fun hydrateFailed => ?_
  cases hydrateFailed with
  | true => exact outside.deny_audited
  | false =>
    change Meets _ _ (_ >>= _) _
    refine outside.bind (ask_asks trivial) fun hydrated => ?_
    by_cases unhydrated : (guard.requireHydration && !hydrated) = true
    · rw [if_pos unhydrated]
      exact outside.deny_audited
    · rw [if_neg unhydrated]
      refine outside.bind (ask_asks trivial) fun frozen => ?_
      cases frozen with
      | some reason => exact outside.deny_audited
      | none =>
        change Meets _ _ (ite _ _ _) _
        split_ifs with mandated
        · refine Meets.bind (VadunoGuard.mandatePreflightFailure_asks.meets outside.quiet) ?_ ?_
          · rintro φ' failure ⟨rfl, managed⟩
            cases failure with
            | none => exact outside.preliminaryStage approves fun _ => managed rfl
            | some failure => exact outside.deny denyRecorded_asks
          · rintro φ' thrown ⟨rfl, -⟩
            exact outside.refused _ trivial
        · exact outside.preliminaryStage approves fun needed => absurd needed mandated

end Approvals

/-- The rule for a whole call. -/
theorem run {intake : Intake} (outside : Outside M post φ) (approving : ∀ op, isApproving op → M.Quiet φ op)
    (commits : ∀ received intent, intake = .sound received intent → ∀ approved, Managed guard intent →
      (exclusive .critical (guard.commit platform mode intent approved)).Meets M post φ)
    (caught : ∀ φ' e, post φ' (.error e) → ∀ p : Program GuardResult, p.Asks isDenying Refused → p.Meets M post φ') :
    (guard.run platform mode intake).Meets M post φ := by
  unfold VadunoGuard.run
  cases intake with
  | unclonable intentId agentId => exact outside.deny_audited
  | malformed intentId agentId received reasons =>
    refine outside.receive (outside.bind (ask_asks trivial) fun policy => ?_)
    exact outside.bind ((appendBestEffort_asks trivial trivial).mono fun _ _ _ => trivial) fun _ =>
      outside.refused _ trivial
  | unidentified intentId agentId received offenders => exact outside.receive outside.deny_audited
  | sound received intent =>
    refine outside.receive ((meets_tryCatch _ _ _).mpr ?_)
    have approves := outside.gateStage fun _ => outside.approvalStage approving (commits received intent rfl)
    refine approves.mono fun φ' r settled => ?_
    cases r with
    | ok result => exact settled
    | error err =>
      refine caught φ' err settled _ ?_
      change Asks isDenying Refused (Async.settled (errMsg err) >>= _)
      cases errMsg err with
      | ok text => exact denyAudited_asks.mono fun _ _ => Refused.of_denied
      | error thrown => exact trivial

end Outside
end Vaduno.Guard
