import Vaduno.Guard.Booking
import Vaduno.Guard.Launch
import Vaduno.Guard.Releases

/-! The last look at the freeze: no call of a guard starts a payment unless the guard was not frozen when the call
looked last. -/
namespace Vaduno.Guard
open Ecma Enforce Mandate Policy Ledger Async Program

/-- What starts a payment: its record, and the rail. -/
def isLaunch : Op → Prop
  | .append .executionStarted _ _ | .runExecutor _ => True
  | _ => False

/-- In the critical section, whether the last look there found no freeze. -/
def look (clear : Option Bool) : (op : Op) → op.Answer → Option Bool
  | .enter .critical, _ => some false
  | .leave .critical, _ => none
  | .frozen, reason => clear.map fun _ => reason.isNone
  | _, _ => clear

def looking : Monitor Op.Answer (Option Bool) where
  allowed clear op := isLaunch op → clear = some true
  step clear op ans clear' := clear' = look clear op ans

/-- A part of the critical section that launches nothing without having looked. -/
abbrev Looks (p : Program α) : Prop := ∀ clear, p.Meets looking (fun s _ => s.isSome = true) (some clear)

variable {platform : Platform} {guard : VadunoGuard} {mode : Mode} {intent : PaymentIntent}
  {finalStance : PolicyResult}

theorem not_isLaunch_of_isHarmless (harmless : isHarmless op) : ¬isLaunch op := by
  cases op with
  | append type data refs =>
    cases type with
    | executionStarted => exact fun _ => harmless
    | _ => exact id
  | runExecutor _ => exact fun _ => harmless
  | _ => exact id

/-- What launches nothing needs no look. -/
theorem harmless_looks {p : Program α} (asks : p.Asks isHarmless anything) (clear : Option Bool) :
    p.Meets looking (fun _ _ => True) clear := by
  refine (Meets.simulate asks (fun _ _ => True) trivial ?_ ?_).mono fun _ _ _ => trivial
  · exact fun _ _ op _ harmless launches => absurd launches (not_isLaunch_of_isHarmless harmless)
  · exact fun _ _ _ _ _ _ _ _ => ⟨(), trivial, trivial⟩

theorem isSome_look {clear : Bool} {ans : op.Answer} (beside : isBeside op) : (look (some clear) op ans).isSome = true := by
  cases op with
  | enter mutex | leave mutex =>
    cases mutex with
    | critical => cases beside
    | consume => rfl
  | _ => rfl

namespace Looks

theorem beside {post : Throwing α → Prop} {p : Program α} (asks : p.Asks isBeside post) : Looks p := by
  intro clear
  refine (Meets.simulate asks (fun _ s => s.isSome = true) rfl ?_ ?_).mono ?_
  · exact fun _ _ op _ harmless launches => absurd launches (not_isLaunch_of_isHarmless (isHarmless_of_isBeside harmless))
  · rintro _ s op ans _ inside harmless rfl
    obtain ⟨clear, rfl⟩ := Option.isSome_iff_exists.mp inside
    exact ⟨(), trivial, isSome_look harmless⟩
  · rintro s r ⟨_, inside, -⟩
    exact inside

theorem bind {p : Program α} {f : α → Program β} (first : Looks p) (rest : ∀ a, Looks (f a)) : Looks (p >>= f) := by
  intro clear
  refine Meets.bind (first clear) ?_ fun _ _ inside => inside
  intro s a inside
  obtain ⟨clear, rfl⟩ := Option.isSome_iff_exists.mp inside
  exact rest a clear

theorem decide {post : Throwing α → Prop} {p : Program α} (asks : p.Asks isDeciding post) : Looks p :=
  beside (asks.widen fun _ => isBeside_of_isDeciding)

theorem deny {p : Program GuardResult} (asks : p.Asks isDenying Refused) : Looks p :=
  beside (asks.widen fun _ => isBeside_of_isDenying)

theorem audited : Looks (denyAudited refs code message) := beside (denyAudited_asks.widen fun _ => isBeside_of_isDenying)

theorem ask (asked : isBeside op) : Looks (Program.ask op) := beside (ask_asks asked)

theorem done {r : Throwing α} : Looks (Async.settled r : Program α) := fun _ => rfl

/-- What a clear look allows until the next one. -/
def isUnlooked : Op → Prop
  | .frozen | .enter .critical | .leave .critical => False
  | _ => True

/-- A clear look stays one until the next. -/
theorem of_clear {post : Throwing α → Prop} {p : Program α} (asks : p.Asks isUnlooked post) :
    p.Meets looking (fun s _ => s.isSome = true) (some true) := by
  refine (asks.meets fun op other => ⟨fun _ => rfl, ?_⟩).mono ?_
  · rintro ans _ rfl
    cases op with
    | frozen => cases other
    | enter mutex | leave mutex =>
      cases mutex with
      | critical => cases other
      | consume => rfl
    | _ => rfl
  · rintro _ r ⟨rfl, -⟩
    rfl

end Looks

namespace VadunoGuard

theorem executeStage_asks :
    (guard.executeStage intent finalStance recorded reservationId consumed).Asks Looks.isUnlooked anything := by
  have reports : ∀ {p : Program GuardResult}, p.Asks isReporting (RailReported intent) →
      p.Asks Looks.isUnlooked anything := fun asks =>
    (asks.widen fun op reporting => by cases op <;> trivial).mono fun _ _ _ => trivial
  unfold executeStage
  refine bind_asks (orThrow_asks (ask_asks trivial)) (fun _ => trivial) fun _ => ?_
  refine bind_asks (ask_asks trivial) (fun _ => trivial) fun outcome => ?_
  cases outcome with
  | error err => exact reports recordFailure_reports
  | ok value => exact reports recordSuccess_reports

theorem launchStage_looks :
    Looks (guard.launchStage platform mode intent finalStance reservationId ours consumed) := by
  intro clear
  unfold launchStage
  refine (meets_bind _ _ _).mpr ⟨False.elim, ?_⟩
  rintro frozen _ rfl
  cases frozen with
  | some reason =>
    have gives : Looks (do
        releaseIfOurs ours
        guard.settleFailed consumed intent "denied by freeze before execution; the rail was never invoked"
        denyFrozen intent reason : Program GuardResult) :=
      .bind (.beside releaseIfOurs_beside) fun _ => .bind (.beside settleConsumed_beside) fun _ => .audited
    exact gives false
  | none =>
    cases mode with
    | authorize =>
      refine Looks.of_clear (Asks.bind (orThrow_asks (ask_asks trivial)) fun _ => ?_)
      trivial
    | execute => exact Looks.of_clear executeStage_asks

theorem consumeStage_looks :
    Looks (guard.consumeStage platform mode intent finalStance reservationId replayed) := by
  have release : Looks (releaseIfOurs (if replayed then none else some reservationId)) := .beside releaseIfOurs_beside
  unfold consumeStage
  by_cases needed : (guard.requireMandate || truthy intent.mandateId) = true
  · simp only [if_pos needed]
    cases guard.mandates with
    | none => exact .done
    | some manager =>
      refine .bind (.beside (consumeOnce_beside manager)) fun outcome => ?_
      cases outcome with
      | rejected check => exact .bind release fun _ => .deny (denyInternal_asks _)
      | replayed claim digestMatches =>
        refine .bind release fun _ => ?_
        split_ifs
        · exact .done
        · exact .deny (denyInternal_asks _)
      | consumed check use =>
        change Looks (ite _ _ _)
        split_ifs
        · exact .bind (.beside settleConsumed_beside) fun _ => .audited
        · exact launchStage_looks
  · simp only [if_neg needed]
    exact launchStage_looks

theorem reserveStage_looks : Looks (guard.reserveStage platform mode intent finalStance) := by
  unfold reserveStage
  refine .bind (.ask trivial) fun policy => .bind (.ask trivial) fun nowMs => ?_
  refine .bind (.beside (orThrow_asks (ask_asks trivial))) fun answered => ?_
  cases answered with
  | refused violation => exact .deny (denyInternal_asks _)
  | ok reservationId replayed state =>
    change Looks (ite _ _ _)
    split_ifs
    · exact .beside replayedResult_asks
    · exact consumeStage_looks

theorem revocationStage_looks : Looks (guard.revocationStage platform mode intent finalStance) := by
  unfold revocationStage append
  refine .bind (.beside (orThrow_asks (ask_asks trivial))) fun _ => ?_
  split_ifs
  · refine .bind (.ask trivial) fun checked => ?_
    cases checked with
    | error err => exact .bind .done fun _ => .deny (denyInternal_asks _)
    | ok verdict =>
      cases verdict with
      | refused code message => exact .deny (denyInternal_asks _)
      | allowed => exact reserveStage_looks
  · exact reserveStage_looks

theorem commit_looks {approved : Bool} : Looks (guard.commit platform mode intent approved) := by
  unfold commit
  refine .bind (.ask trivial) fun frozen => ?_
  cases frozen with
  | some reason => exact .audited
  | none =>
    refine .bind (.ask trivial) fun policy => .bind (.decide evaluatePolicy_asks) fun result => ?_
    split
    · exact .deny denyRecorded_asks
    · exact .deny denyRecorded_asks
    · split
      · exact revocationStage_looks
      · refine .bind (.decide scoreRisk_asks) fun scored => ?_
        cases scored with
        | unscorable message => exact .deny (denyInternal_asks _)
        | scored assessment =>
          change Looks (ite _ _ _)
          split_ifs
          · exact .decide denyRiskHigh_asks
          · exact .deny denyRecorded_asks
          · exact revocationStage_looks

theorem outside_looks : Outside looking (fun _ _ => True) none where
  quiet op deciding := by
    refine ⟨fun launches => absurd launches (not_isLaunch_of_isHarmless (isHarmless_of_isDeciding deciding)), ?_⟩
    rintro ans _ rfl
    cases op with
    | enter _ => cases deciding
    | leave mutex => cases mutex <;> rfl
    | _ => rfl
  refused _ _ := trivial
  rejected _ _ := trivial

theorem run_looks {intake : Intake} : (guard.run platform mode intake).Meets looking (fun _ _ => True) none := by
  refine outside_looks.run ?_ ?_ ?_
  · intro op approving
    refine ⟨fun launches => absurd launches ?_, ?_⟩
    · exact not_isLaunch_of_isHarmless (isHarmless_of_isBeside (isBeside_of_isApproving approving))
    · rintro ans _ rfl
      cases op <;> first | rfl | cases approving
  · intro received intent _ approved _
    rw [meets_exclusive]
    refine ⟨False.elim, ?_⟩
    rintro _ _ rfl
    exact (commit_looks false).mono fun _ _ _ => ⟨False.elim, fun _ _ _ => trivial⟩
  · intro clear e _ p denies
    refine harmless_looks ((denies.widen fun _ denying => ?_).mono fun _ _ _ => trivial) clear
    exact isHarmless_of_isDeciding (isDeciding_of_isDenying denying)

theorem submit_looks {submitted : Submitted} :
    (guard.submit platform mode submitted).Meets looking (fun _ _ => True) none := by
  unfold submit
  cases submitted.enter platform with
  | error e => trivial
  | ok intake => exact run_looks

theorem releaseSpend_harmless : (releaseSpend intentId).Asks isHarmless anything :=
  releaseBestEffort_beside.widen fun _ => isHarmless_of_isBeside

theorem recordSettlement_harmless : (recordSettlement intentId outcome).Asks isHarmless anything := by
  unfold recordSettlement
  refine (meets_exclusive _ _ _).mpr ⟨trivial, fun _ _ _ => ?_⟩
  refine Meets.mono (Asks.bind (ask_asks ?_) fun read => ?_) fun _ _ _ => ⟨trivial, fun _ _ _ => trivial⟩
  · trivial
  · dsimp only
    generalize settlementRow outcome (Option.getD (Except.toOption read) []) = row
    cases row with
    | none => trivial
    | some row => exact (appendBestEffort_asks trivial trivial).mono fun _ _ _ => trivial

theorem settle_harmless : (guard.settle intentId outcome).Asks isHarmless anything := by
  have beside : ∀ {α : Type} {p : Program α}, p.Asks isBeside anything → p.Asks isHarmless anything := fun asks =>
    asks.widen fun _ => isHarmless_of_isBeside
  unfold settle
  refine bind_asks (orThrow_asks (ask_asks trivial)) (fun _ => trivial) fun settledAt => ?_
  refine bind_asks (p := commitSettled intentId outcome.status) ?_ (fun _ => trivial) fun _ => ?_
  · cases outcome.status with
    | executed => exact beside commitBestEffort_beside
    | failed => trivial
  refine bind_asks (p := guard.settleMandate intentId settledAt outcome) ?_ (fun _ => trivial) fun _ => ?_
  · unfold settleMandate
    split_ifs
    · exact beside settleBestEffort_beside
    · trivial
  exact recordSettlement_harmless

end VadunoGuard

theorem GuardUse.looks (use : GuardUse) :
    (use.program platform guard).Meets looking (fun _ _ => True) none := by
  cases use with
  | pay mode submitted => exact (meets_map _ _ _).mpr VadunoGuard.submit_looks
  | settle intentId outcome =>
    refine harmless_looks (Asks.bind VadunoGuard.settle_harmless fun _ => ?_) none
    trivial
  | releaseSpend intentId =>
    refine harmless_looks (Asks.bind VadunoGuard.releaseSpend_harmless fun _ => ?_) none
    trivial

end Vaduno.Guard
