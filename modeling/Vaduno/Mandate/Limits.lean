import Vaduno.Policy.Limits

/-! The numbers of a mandate. Nothing checks them: the uses made so far and the amount of the intent are
compared with them as they are. -/
namespace Vaduno.Mandate
open Ecma Enforce Policy Program

section Compared
variable {platform : Platform} {mandate : AnyMandate} {intent : PaymentIntent} {uses nowMs : Number}
  {check : MandateCheck}

/-- A check that accepts has not been refused on the way. -/
theorem passed {refused : Prop} [Decidable refused] {refusal rest : Throwing MandateCheck}
    (ran : (if refused then refusal else rest) = .ok check) (accepted : check.ok = true)
    (refuses : ∀ check', refusal = .ok check' → check'.ok = false) : ¬refused ∧ rest = .ok check := by
  by_cases stopped : refused
  · rw [if_pos stopped] at ran
    rw [refuses check ran] at accepted
    cases accepted
  · rw [if_neg stopped] at ran
    exact ⟨stopped, ran⟩

theorem refuses_plainly {code : CheckCode} {message : JsString} (check' : MandateCheck)
    (same : Except.ok (MandateCheck.refuse code message) = (.ok check' : Throwing MandateCheck)) :
    check'.ok = false := by
  cases same
  rfl

theorem refuses_telling {code : CheckCode} {text : Throwing JsString} {message : JsString → JsString}
    (check' : MandateCheck)
    (told : (text >>= fun limit => Except.ok (MandateCheck.refuse code (message limit))) = .ok check') :
    check'.ok = false := by
  obtain ⟨limit, -, same⟩ := bind_ok told
  exact refuses_plainly check' same

/-- What the check of the constraints has compared before it accepts. -/
theorem compared_of_accepted (ran : checkConstraints platform mandate intent uses nowMs = .ok check)
    (accepted : check.ok = true) : platform.reaches uses mandate.constraints.maxUses = .ok false ∧
      platform.exceeds intent.amount.amountMinor mandate.constraints.maxAmountMinor = .ok false := by
  unfold checkConstraints at ran
  have ran := (passed ran accepted refuses_plainly).2
  have ran := (passed ran accepted refuses_plainly).2
  have ran := (passed ran accepted refuses_plainly).2
  obtain ⟨exhausted, reached, ran⟩ := bind_ok ran
  obtain ⟨unused, ran⟩ := passed ran accepted refuses_telling
  have ran := (passed ran accepted refuses_plainly).2
  have ran := (passed ran accepted refuses_plainly).2
  obtain ⟨exceeded, compared, ran⟩ := bind_ok ran
  obtain ⟨within, -⟩ := passed ran accepted refuses_telling
  rw [Bool.not_eq_true] at unused within
  rw [reached, compared, unused, within]
  exact ⟨rfl, rfl⟩

/-- A mandate of two limits, valid for some time. -/
def numbered (maxUses maxAmountMinor : JsValue) (validFrom expiresAt : JsString) : AnyMandate :=
  { Vaduno.Sample.mandate 1 with
    constraints := { (Vaduno.Sample.mandate 1).constraints with
      maxUses := maxUses
      maxAmountMinor := maxAmountMinor
      validFrom := validFrom
      expiresAt := expiresAt } }

/-- Nothing but the two comparisons stands between a payment and such a mandate. -/
theorem numbered_accepts {maxUses maxAmountMinor : JsValue} {validFrom expiresAt : JsString} {amountMinor : Number}
    (begun : platform.dateParse validFrom ≤ nowMs) (lasting : nowMs < platform.dateParse expiresAt)
    (unused : platform.reaches uses maxUses = .ok false)
    (within : platform.exceeds amountMinor maxAmountMinor = .ok false) :
    checkConstraints platform (numbered maxUses maxAmountMinor validFrom expiresAt) (paying amountMinor) uses nowMs =
      .ok .valid := by
  have parsed : ((platform.dateParse validFrom).isNaN || (platform.dateParse expiresAt).isNaN) = false := by
    rw [Bool.or_eq_false_iff]
    constructor
    · cases h : platform.dateParse validFrom with
      | nan =>
        rw [h] at begun
        cases begun
      | _ => rfl
    · cases h : platform.dateParse expiresAt with
      | nan =>
        rw [h] at lasting
        cases nowMs <;> cases lasting
      | _ => rfl
  have early : ¬nowMs < platform.dateParse validFrom := fun early => Number.not_le_of_lt early begun
  have late : ¬platform.dateParse expiresAt ≤ nowMs := Number.not_le_of_lt lasting
  have agent : ¬(numbered maxUses maxAmountMinor validFrom expiresAt).agentId ≠ (paying amountMinor).agentId :=
    not_not.mpr rfl
  have currency : ¬platform.toUpperCase (numbered maxUses maxAmountMinor validFrom expiresAt).constraints.currency ≠
      platform.toUpperCase (paying amountMinor).amount.currency := not_not.mpr rfl
  unfold checkConstraints
  dsimp only
  rw [if_neg agent, if_neg currency, show (paying amountMinor).amount.amountMinor = amountMinor from rfl]
  simp only [numbered, parsed, Bool.false_eq_true, if_false, if_neg early, if_neg late, unused, within, ok_bind]
  rfl

end Compared

section Managed
variable {platform : Platform} {manager : MandateManager} {answer : (op : Op) → op.Answer} {state : MandateState}
  {mandateId : JsString} {intent : PaymentIntent} {uses : Number} {check : MandateCheck}

/-- A manager accepts no intent that the constraints refuse. -/
theorem checkState_accepted
    (ran : (manager.checkState platform state intent uses).answeredBy answer = .ok check)
    (accepted : check.ok = true) :
    checkConstraints platform state.mandate intent uses (answer .now) = .ok check := by
  unfold MandateManager.checkState at ran
  cases signed : manager.signatureProblem state.mandate with
  | some problem =>
    rw [signed] at ran
    cases ran
    cases accepted
  | none =>
    rw [signed] at ran
    by_cases revoked : state.revoked = true
    · simp only [revoked, if_true] at ran
      cases ran
      cases accepted
    · rw [if_neg revoked] at ran
      exact ran

theorem checkState_of_constraints (signed : manager.signatureProblem state.mandate = none)
    (standing : state.revoked = false)
    (ran : checkConstraints platform state.mandate intent uses (answer .now) = .ok check) :
    (manager.checkState platform state intent uses).answeredBy answer = .ok check := by
  unfold MandateManager.checkState
  rw [signed]
  simp only [standing, Bool.false_eq_true, if_false]
  exact ran

theorem check_answeredBy (stated : answer (.mandateState mandateId) = some state) :
    (manager.check platform mandateId intent).answeredBy answer =
      (manager.checkState platform state intent state.uses).answeredBy answer := by
  rw [MandateManager.check, Async.answeredBy_bind, Async.answeredBy_perform, ok_bind, stated]

/-- A use that is consumed was checked against a count of none, for an intent that can be digested. -/
theorem consumed_checked {use : ℕ} (stated : answer (.mandateState mandateId) = some state)
    (ran : (manager.consumeOnce platform mandateId intent).answeredBy answer = .ok (.consumed check use)) :
    (∃ digest, intentDigest platform intent = .ok digest) ∧ ∃ check',
      (manager.checkState platform state intent 0).answeredBy answer = .ok check' ∧ check'.ok = true := by
  rw [MandateManager.consumeOnce, answeredBy_exclusive, Async.answeredBy_bind, Async.answeredBy_perform, ok_bind,
    stated] at ran
  dsimp only at ran
  rw [Async.answeredBy_bind] at ran
  obtain ⟨digest, digested, ran⟩ := bind_ok ran
  rw [Async.answeredBy_bind] at ran
  obtain ⟨found, -, ran⟩ := bind_ok ran
  refine ⟨⟨digest, digested⟩, ?_⟩
  cases found with
  | some prior =>
    dsimp only [MandateManager.replayOutcome] at ran
    rw [Async.answeredBy_bind] at ran
    obtain ⟨_, -, ran⟩ := bind_ok ran
    cases ran
  | none =>
    dsimp only at ran
    rw [Async.answeredBy_bind] at ran
    obtain ⟨check', checked, ran⟩ := bind_ok ran
    refine ⟨check', checked, ?_⟩
    by_contra refused
    rw [if_neg refused] at ran
    cases ran

end Managed

section World
variable (platform : Platform)

/-- A world with a clock, one mandate and the single-process store, as the store stands. -/
def facing (nowMs : Number) (state : MandateState) (table : ClaimTable claimKey) : (op : Op) → op.Answer
  | .now => nowMs
  | .mandateState _ => some state
  | .getClaim mandateId useKey => .ok ((memoryConsumeStore platform).get table mandateId useKey)
  | .claimUse claim maxUses => ((memoryConsumeStore platform).claim table claim maxUses).1
  | op => Vaduno.Sample.outside op

/-- A manager that verifies every signature and keeps no ledger. -/
def trusting : MandateManager := ⟨fun _ => none, false⟩

variable {platform} {nowMs amountMinor : Number} {state : MandateState} {check : MandateCheck} {digest : JsString}

theorem facing_consumes
    (accepted : checkConstraints platform state.mandate (paying amountMinor) 0 nowMs = .ok check)
    (ok : check.ok = true) (standing : state.revoked = false)
    (digested : intentDigest platform (paying amountMinor) = .ok digest)
    (room : platform.reaches 0 state.mandate.constraints.maxUses = .ok false) :
    (trusting.consumeOnce platform "m-1" (paying amountMinor)).answeredBy (facing platform nowMs state .empty) =
      .ok (.consumed check 1) := by
  have checked : (trusting.checkState platform state (paying amountMinor) 0).answeredBy
      (facing platform nowMs state .empty) = .ok check := checkState_of_constraints rfl standing accepted
  have claimed : ∀ claim, ((memoryConsumeStore platform).claim .empty claim state.mandate.constraints.maxUses).1 =
      .ok (.winner 1) := by
    intro claim
    have contract := (memoryConsumeStore platform).claims .empty claim state.mandate.constraints.maxUses
    generalize ((memoryConsumeStore platform).claim .empty claim state.mandate.constraints.maxUses).1 = result,
      ((memoryConsumeStore platform).claim .empty claim state.mandate.constraints.maxUses).2 = after at contract
    cases contract with
    | duplicate found => cases found
    | unusable fresh fails => exact absurd (room.symm.trans fails) nofun
    | exhausted fresh full => exact absurd (room.symm.trans full) nofun
    | winner fresh room held counted => rfl
  rw [MandateManager.consumeOnce, answeredBy_exclusive, Async.answeredBy_bind, Async.answeredBy_perform, ok_bind]
  change Async.answeredBy _ (Async.settled (intentDigest platform (paying amountMinor)) >>= _) = _
  rw [Async.answeredBy_bind, Async.answeredBy_settled, digested, ok_bind, Async.answeredBy_bind]
  change Async.answeredBy _ (trusting.checkState platform state (paying amountMinor) 0 >>= _) = _
  rw [Async.answeredBy_bind, checked, ok_bind, if_pos ok, MandateManager.consume, Async.answeredBy_bind]
  change Async.answeredBy _ (orThrow (ask (.claimUse _ _)) >>= _) = _
  rw [Async.answeredBy_bind, answeredBy_orThrow, Async.answeredBy_perform, ok_bind, facing, claimed]
  rfl

/-- A time that a mandate can be valid at. -/
def HasPeriod (platform : Platform) : Prop :=
  ∃ validFrom expiresAt nowMs, platform.dateParse validFrom ≤ nowMs ∧ nowMs < platform.dateParse expiresAt

/-- No manager accepts a payment of some amount against a mandate of two limits that was used so often. -/
def NeverAccepted (platform : Platform) (uses amountMinor : Number) (maxUses maxAmountMinor : JsValue) : Prop :=
  ∀ (manager : MandateManager) (answer : (op : Op) → op.Answer) (mandateId : JsString) (intent : PaymentIntent)
    (state : MandateState) (check : MandateCheck), answer (.mandateState mandateId) = some state →
    manager.signatureProblem state.mandate = none → state.uses = uses → intent.amount.amountMinor = amountMinor →
    state.mandate.constraints.maxUses = maxUses → state.mandate.constraints.maxAmountMinor = maxAmountMinor →
    (manager.check platform mandateId intent).answeredBy answer = .ok check → check.ok = false

/-- No manager over the single-process store, whatever the store holds, consumes a use of such a mandate. -/
def NeverConsumed (platform : Platform) (amountMinor : Number) (maxUses maxAmountMinor : JsValue) : Prop :=
  ∀ (manager : MandateManager) (answer : (op : Op) → op.Answer) (mandateId : JsString) (intent : PaymentIntent)
    (state : MandateState) (table : ClaimTable claimKey) (check : MandateCheck) (use : ℕ),
    answer (.mandateState mandateId) = some state →
    (∀ m k, answer (.getClaim m k) = .ok ((memoryConsumeStore platform).get table m k)) →
    (∀ c n, answer (.claimUse c n) = ((memoryConsumeStore platform).claim table c n).1) →
    manager.signatureProblem state.mandate = none → intent.amount.amountMinor = amountMinor →
    state.mandate.constraints.maxUses = maxUses → state.mandate.constraints.maxAmountMinor = maxAmountMinor →
    (manager.consumeOnce platform mandateId intent).answeredBy answer ≠ .ok (.consumed check use)

/-- Nothing is accepted if and only if one of the comparisons says so or throws. -/
theorem neverAccepted_iff (period : HasPeriod platform) {uses : Number} {maxUses maxAmountMinor : JsValue} :
    NeverAccepted platform uses amountMinor maxUses maxAmountMinor ↔
      platform.reaches uses maxUses ≠ .ok false ∨ platform.exceeds amountMinor maxAmountMinor ≠ .ok false := by
  constructor
  · intro never
    by_contra compared
    simp only [not_or, not_not] at compared
    obtain ⟨validFrom, expiresAt, nowMs, begun, lasting⟩ := period
    have accepted := numbered_accepts begun lasting compared.1 compared.2
    let state : MandateState := ⟨numbered maxUses maxAmountMinor validFrom expiresAt, uses, false⟩
    have checked : (trusting.check platform "m-1" (paying amountMinor)).answeredBy
        (facing platform nowMs state .empty) = .ok .valid := by
      rw [check_answeredBy rfl]
      exact checkState_of_constraints rfl rfl accepted
    exact absurd (never _ _ _ _ state _ rfl rfl rfl rfl rfl rfl checked) nofun
  · rintro refused manager answer mandateId intent state check stated - rfl rfl rfl rfl ran
    rw [check_answeredBy stated] at ran
    by_contra accepted
    rw [Bool.not_eq_false] at accepted
    obtain ⟨unused, within⟩ := compared_of_accepted (checkState_accepted ran accepted) accepted
    exact refused.elim (fun reached => reached unused) fun exceeded => exceeded within

/-- Nothing is consumed if and only if that is so for a count of none, or the intent cannot be digested. -/
theorem neverConsumed_iff (period : HasPeriod platform) {maxUses maxAmountMinor : JsValue} :
    NeverConsumed platform amountMinor maxUses maxAmountMinor ↔
      amountMinor.isFinite = false ∨ platform.reaches 0 maxUses ≠ .ok false ∨
        platform.exceeds amountMinor maxAmountMinor ≠ .ok false := by
  constructor
  · intro never
    by_contra compared
    simp only [not_or, not_not, Bool.not_eq_false] at compared
    obtain ⟨finite, unused, within⟩ := compared
    obtain ⟨validFrom, expiresAt, nowMs, begun, lasting⟩ := period
    have accepted := numbered_accepts begun lasting unused within
    let state : MandateState := ⟨numbered maxUses maxAmountMinor validFrom expiresAt, 0, false⟩
    have consumed : (trusting.consumeOnce platform "m-1" (paying amountMinor)).answeredBy
        (facing platform nowMs state .empty) = .ok (.consumed .valid 1) :=
      facing_consumes accepted rfl rfl (intentDigest_finite platform (paying amountMinor) finite) unused
    exact never _ _ _ _ state .empty _ _ rfl (fun _ _ => rfl) (fun _ _ => rfl) rfl rfl rfl rfl consumed
  · rintro refused manager answer mandateId intent state table check use stated - - - rfl rfl rfl ran
    obtain ⟨⟨digest, digested⟩, check', checked, accepted⟩ := consumed_checked stated ran
    obtain ⟨unused, within⟩ := compared_of_accepted (checkState_accepted checked accepted) accepted
    rcases refused with infinite | reached | exceeded
    · rw [finite_of_intentDigest platform digested] at infinite
      cases infinite
    · exact reached unused
    · exact exceeded within

end World

/-- What becomes of numbers that are unusable. In a window they deny everything. Elsewhere no payment is
let through if and only if the comparison with the number says so or throws: an amount must exceed the
limit on a transaction or reach the approval threshold, and the uses or the amount must go past what a
mandate names. -/
theorem unusable_limits_compared {platform : Platform} (period : HasPeriod platform) :
    (∀ amountMinor perTransactionMinor aboveMinor, NeverAllowed platform amountMinor perTransactionMinor aboveMinor ↔
      amountValid (paying amountMinor) = false ∨ platform.exceeds amountMinor perTransactionMinor ≠ .ok false ∨
        platform.reaches amountMinor aboveMinor ≠ .ok false) ∧
    (∀ answer intent policy countsMerchants result limit, Unusable limit →
      limit ∈ amountNumbers policy ++ countNumbers policy →
      evaluation platform answer intent policy countsMerchants = .ok result → result.decision = .deny) ∧
    (∀ uses amountMinor maxUses maxAmountMinor, NeverAccepted platform uses amountMinor maxUses maxAmountMinor ↔
      platform.reaches uses maxUses ≠ .ok false ∨ platform.exceeds amountMinor maxAmountMinor ≠ .ok false) ∧
    ∀ amountMinor maxUses maxAmountMinor, NeverConsumed platform amountMinor maxUses maxAmountMinor ↔
      amountMinor.isFinite = false ∨ platform.reaches 0 maxUses ≠ .ok false ∨
        platform.exceeds amountMinor maxAmountMinor ≠ .ok false := by
  refine ⟨fun _ _ _ => neverAllowed_iff, ?_, fun _ _ _ _ => neverAccepted_iff period,
    fun _ _ _ => neverConsumed_iff period⟩
  intro answer intent policy countsMerchants result limit unusable listed decided
  exact malformed_denied decided (malformed_of_unusable unusable listed)

theorem sample_hasPeriod : HasPeriod Vaduno.Sample.platform :=
  ⟨"2026-01-01T00:00:00.000Z", "2027-01-01T00:00:00.000Z", 1780000000000, by decide +kernel, by decide +kernel⟩

/-- A limit that is not a number allows a payment, and a mandate that does not say how often it may be
used is consumed. -/
theorem nan_limit_allows : Unusable (.number .nan) ∧
    (∃ result, evaluation Vaduno.Sample.platform Vaduno.Sample.outside (paying 500)
      (limited (.number .nan) .undefined) true = .ok result ∧ result.decision = .allow) ∧
    ∃ state : MandateState, state.mandate.constraints.maxUses = .undefined ∧
      (trusting.consumeOnce Vaduno.Sample.platform "m-1" (paying 500)).answeredBy
        (facing Vaduno.Sample.platform 1780000000000 state .empty) = .ok (.consumed .valid 1) := by
  refine ⟨⟨rfl, ?_⟩, limited_allows (by decide +kernel) rfl rfl, ?_⟩
  · rintro n same
    cases same
    exact .inl rfl
  · have accepted : checkConstraints Vaduno.Sample.platform (numbered .undefined (.number 1000)
        "2026-01-01T00:00:00.000Z" "2027-01-01T00:00:00.000Z") (paying 500) 0 1780000000000 = .ok .valid :=
      numbered_accepts (by decide +kernel) (by decide +kernel) rfl (of_toOption (by decide +kernel))
    exact ⟨⟨_, 0, false⟩, rfl, facing_consumes accepted rfl rfl
      (intentDigest_finite Vaduno.Sample.platform (paying 500) (by decide +kernel)) rfl⟩

theorem negative_limit_denies : NeverAllowed Vaduno.Sample.platform 500 (.number (-1)) .undefined := by
  refine ((unusable_limits_compared sample_hasPeriod).1 _ _ _).mpr (.inr (.inl ?_))
  have exceeded : Vaduno.Sample.platform.exceeds 500 (.number (-1)) = .ok true := of_toOption (by decide +kernel)
  rw [exceeded]
  nofun

end Vaduno.Mandate
