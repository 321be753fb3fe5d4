import Vaduno.Guard.Denials

/-! Under which policy a payment is decided and under which it is counted. The policy can be replaced while a call
waits; the critical section reads it once to evaluate the payment and once more to reserve the budget. -/
namespace Vaduno.Guard
open Ecma Enforce Mandate Policy Ledger Async Program

/-- The policies that a call has read in its critical section. -/
structure Decision where
  inside : Bool
  /-- The first one, which the payment is evaluated under. -/
  evaluated : Option SpendPolicy
  latest : Option SpendPolicy
  /-- The latest one when the budget was asked for, and what was asked. -/
  reserved : Option (SpendPolicy × ReserveRequest)

namespace Decision

def start : Decision := ⟨false, none, none, none⟩

def advance (δ : Decision) : (op : Op) → op.Answer → Decision
  | .enter .critical, _ => { δ with inside := true }
  | .policy, policy =>
    if δ.inside && δ.reserved.isNone then
      { δ with evaluated := δ.evaluated.or (some policy), latest := some policy }
    else δ
  | .reserve request, _ => { δ with reserved := δ.reserved.or (δ.latest.map (·, request)) }
  | _, _ => δ

end Decision

/-- The budget is asked for under this policy: its id, its currency and its windows. -/
structure Under (policy : SpendPolicy) (request : ReserveRequest) : Prop where
  scope : request.scope = policy.id
  currency : request.currency = policy.currency
  windows : request.windows = policyWindows policy

/-- Two policies keep the same budget. -/
structure SameBudget (evaluated reserved : SpendPolicy) : Prop where
  id : reserved.id = evaluated.id
  currency : reserved.currency = evaluated.currency
  windows : policyWindows reserved = policyWindows evaluated

theorem Under.iff_same (under : Under reserved request) : Under evaluated request ↔ SameBudget evaluated reserved := by
  constructor
  · rintro ⟨scope, currency, windows⟩
    exact ⟨under.scope.symm.trans scope, under.currency.symm.trans currency, under.windows.symm.trans windows⟩
  · rintro ⟨id, currency, windows⟩
    exact ⟨under.scope.trans id, under.currency.trans currency, under.windows.trans windows⟩

/-! ### What is read -/

/-- The budget has been asked for, under the latest of the policies that were read. -/
structure Decision.Asked (δ : Decision) : Prop where
  evaluated : δ.evaluated.isSome = true
  reserved : ∃ policy request, δ.reserved = some (policy, request) ∧ Under policy request

/-- A call asks for the budget under a policy it has read, and for the rail only after that. -/
def reading : Monitor Op.Answer Decision where
  allowed δ
    | .reserve request => δ.Asked ∨ δ.reserved = none ∧ δ.evaluated.isSome = true ∧
      ∃ policy, δ.latest = some policy ∧ Under policy request
    | .runExecutor _ => δ.Asked
    | _ => True
  step δ op ans δ' := δ' = δ.advance op ans

/-- An authorization is promised only after that as well. -/
def Read (δ : Decision) (r : Throwing GuardResult) : Prop :=
  ∀ intentId policyResult mandateId, r = .ok (.authorized intentId policyResult mandateId) → δ.Asked

variable {platform : Platform} {guard : VadunoGuard} {mode : Mode} {intent : PaymentIntent}
  {finalStance : PolicyResult} {δ : Decision}

theorem Read.of_refused (refused : Refused r) : Read δ r := by
  rintro intentId policyResult mandateId rfl
  cases refused

/-- Once the budget has been asked for, nothing that is read matters. -/
theorem Decision.Asked.advance (asked : δ.Asked) (op : Op) (ans : op.Answer) : (δ.advance op ans).Asked := by
  obtain ⟨evaluated, policy, request, reserved, under⟩ := asked
  unfold Decision.advance
  split
  · exact ⟨evaluated, policy, request, reserved, under⟩
  · rw [reserved, if_neg (by simp)]
    exact ⟨evaluated, policy, request, reserved, under⟩
  · refine ⟨evaluated, policy, request, ?_, under⟩
    rw [reserved]
    rfl
  · exact ⟨evaluated, policy, request, reserved, under⟩

theorem Decision.Asked.of_reserve {ans : Op.Answer (.reserve request)} (known : δ.evaluated.isSome = true)
    (unasked : δ.reserved = none) (latest : δ.latest = some policy) (under : Under policy request) :
    (δ.advance (.reserve request) ans).Asked := by
  refine ⟨known, policy, request, ?_, under⟩
  change δ.reserved.or (δ.latest.map _) = _
  rw [unasked, latest]
  rfl

theorem asked_meets (p : Program GuardResult) (asked : δ.Asked) : p.Meets reading Read δ := by
  induction p generalizing δ with
  | done result => exact fun _ _ _ _ => asked
  | await op next ih =>
    refine ⟨?_, fun ans δ' moved => ?_⟩
    · unfold reading
      dsimp only
      split
      · exact .inl asked
      · exact asked
      · trivial
    · rw [show δ' = δ.advance op ans from moved]
      exact ih ans (asked.advance op ans)

/-- A denial reads nothing that it acts on. -/
theorem denial_reads {p : Program GuardResult} (asks : p.Asks isDenying Refused) : p.Meets reading Read δ := by
  refine (Meets.simulate asks (fun _ _ => True) trivial ?_ ?_).mono ?_
  · intro _ δ op _ recording
    cases op with
    | reserve _ | runExecutor _ => cases recording
    | _ => trivial
  · exact fun _ _ _ _ _ _ _ _ => ⟨(), trivial, trivial⟩
  · rintro δ r ⟨_, -, refused⟩
    exact .of_refused refused

theorem audited_reads : (denyAudited refs code message).Meets reading Read δ :=
  denial_reads (denyAudited_asks.mono fun _ _ => Refused.of_denied)

/-! ### Up to the reservation -/

/-- Outside the critical section nothing is remembered. -/
theorem reading_outside (preliminary : isPreliminary op) : reading.Quiet .start op := by
  constructor
  · cases op with
    | reserve _ | runExecutor _ => cases preliminary
    | _ => trivial
  · intro ans δ' moved
    rw [show δ' = _ from moved]
    cases op with
    | enter _ | reserve _ => cases preliminary
    | _ => rfl

/-- Inside, the payment has been evaluated and the budget has not been asked for. -/
structure Decision.Evaluated (δ : Decision) : Prop where
  inside : δ.inside = true
  evaluated : δ.evaluated.isSome = true
  reserved : δ.reserved = none

theorem Decision.Evaluated.reads (evaluated : δ.Evaluated) : (δ.inside && δ.reserved.isNone) = true := by
  rw [evaluated.inside, evaluated.reserved]
  rfl

theorem evaluated_asks {post : Throwing α → Prop} {p : Program α} (asks : p.Asks isDeciding post)
    (evaluated : δ.Evaluated) : p.Meets reading (fun δ' r => δ'.Evaluated ∧ post r) δ := by
  refine (Meets.simulate asks (fun _ δ' => δ'.Evaluated) evaluated ?_ ?_).mono ?_
  · rintro _ δ op _ deciding
    cases op with
    | reserve _ | runExecutor _ => cases deciding
    | _ => trivial
  · rintro _ δ op ans _ evaluated deciding rfl
    refine ⟨(), trivial, ?_⟩
    unfold Decision.advance
    split
    · cases deciding
    · rw [if_pos evaluated.reads]
      exact ⟨evaluated.inside, by cases δ.evaluated <;> rfl, evaluated.reserved⟩
    · cases deciding
    · exact evaluated
  · rintro δ r ⟨_, evaluated, settled⟩
    exact ⟨evaluated, settled⟩

theorem evaluated_bind {p : Program α} {f : α → Program GuardResult} (evaluated : δ.Evaluated)
    (first : p.Asks isDeciding anything) (rest : ∀ δ a, Decision.Evaluated δ → (f a).Meets reading Read δ) :
    (p >>= f).Meets reading Read δ := by
  refine Meets.bind (evaluated_asks first evaluated) ?_ ?_
  · rintro δ a ⟨evaluated, -⟩
    exact rest δ a evaluated
  · rintro δ e -
    exact .of_refused trivial

theorem evaluated_refuse {p : Program GuardResult} (evaluated : δ.Evaluated) (asks : p.Asks isDeciding Refused) :
    p.Meets reading Read δ :=
  (evaluated_asks asks evaluated).mono fun _ _ settled => .of_refused settled.2

theorem reserveStage_reads (evaluated : δ.Evaluated) :
    (guard.reserveStage platform mode intent finalStance).Meets reading Read δ := by
  unfold VadunoGuard.reserveStage
  refine (meets_bind _ _ _).mpr ⟨trivial, fun policy δ' moved => ?_⟩
  have read : δ' = { δ with evaluated := δ.evaluated.or (some policy), latest := some policy } := by
    rw [show δ' = δ.advance .policy policy from moved, Decision.advance, if_pos evaluated.reads]
  refine (meets_bind _ _ _).mpr ⟨trivial, fun nowMs δ'' unmoved => ?_⟩
  obtain rfl : δ'' = δ' := unmoved
  refine (meets_bind _ _ _).mpr ((meets_orThrow _ _).mpr ?_)
  have known : δ''.evaluated.isSome = true := by
    rw [read]
    cases δ.evaluated <;> rfl
  have unasked : δ''.reserved = none := by
    rw [read]
    exact evaluated.reserved
  have latest : δ''.latest = some policy := by
    rw [read]
  refine ⟨.inr ⟨unasked, known, policy, latest, ?_⟩, fun answered δ' moved => ?_⟩
  · constructor <;> rfl
  have asked : δ'.Asked := by
    rw [show δ' = δ''.advance _ answered from moved]
    refine .of_reserve known unasked latest ?_
    constructor <;> rfl
  cases answered with
  | error e => exact fun _ _ _ _ => asked
  | ok answer => exact asked_meets _ asked

theorem revocationStage_reads (evaluated : δ.Evaluated) :
    (guard.revocationStage platform mode intent finalStance).Meets reading Read δ := by
  unfold VadunoGuard.revocationStage append
  refine evaluated_bind evaluated (orThrow_asks (ask_asks trivial)) fun δ _ evaluated => ?_
  split_ifs
  · refine evaluated_bind evaluated (ask_asks trivial) fun δ checked evaluated => ?_
    cases checked with
    | ok verdict =>
      cases verdict with
      | allowed => exact reserveStage_reads evaluated
      | refused code message => exact denial_reads (denyInternal_asks _)
    | error err =>
      exact evaluated_bind evaluated (settled_asks _) fun δ text evaluated =>
        denial_reads (denyInternal_asks _)
  · exact reserveStage_reads evaluated

theorem commit_reads : (guard.commit platform mode intent approved).Meets reading Read ⟨true, none, none, none⟩ := by
  unfold VadunoGuard.commit
  refine (meets_bind _ _ _).mpr ⟨trivial, fun frozen δ moved => ?_⟩
  obtain rfl : δ = ⟨true, none, none, none⟩ := moved
  cases frozen with
  | some reason =>
    exact audited_reads
  | none =>
    refine (meets_bind _ _ _).mpr ⟨trivial, fun policy δ moved => ?_⟩
    have evaluated : δ.Evaluated := by
      rw [show δ = _ from moved]
      exact ⟨rfl, rfl, rfl⟩
    refine evaluated_bind evaluated evaluatePolicy_asks fun δ result evaluated => ?_
    split
    · exact denial_reads denyRecorded_asks
    · exact denial_reads denyRecorded_asks
    · split
      · exact revocationStage_reads evaluated
      · refine evaluated_bind evaluated VadunoGuard.scoreRisk_asks fun δ scored evaluated => ?_
        cases scored with
        | unscorable message => exact denial_reads (denyInternal_asks _)
        | scored assessment =>
          change Meets _ _ (ite _ _ _) _
          split_ifs
          · exact evaluated_refuse evaluated VadunoGuard.denyRiskHigh_asks
          · exact denial_reads denyRecorded_asks
          · exact revocationStage_reads evaluated

theorem outside_reading : Outside reading Read .start where
  quiet _ deciding := reading_outside (isPreliminary_of_isDeciding deciding)
  refused _ := .of_refused
  rejected _ _ := by rintro _ _ _ ⟨⟩

theorem exclusive_reads {p : Program GuardResult} (reads : p.Meets reading Read ⟨true, none, none, none⟩) :
    (exclusive .critical p).Meets reading Read .start := by
  rw [meets_exclusive]
  refine ⟨trivial, fun _ δ moved => ?_⟩
  rw [show δ = ⟨true, none, none, none⟩ from moved]
  refine reads.mono fun δ r read => ⟨trivial, fun ans δ' moved => ?_⟩
  rw [show δ' = δ from moved]
  exact read

theorem run_reads (intake : Intake) : (guard.run platform mode intake).Meets reading Read .start :=
  outside_reading.run (fun _ approving => reading_outside (isPreliminary_of_isApproving approving))
    (fun _ _ _ _ _ => exclusive_reads commit_reads) fun _ _ _ _ => denial_reads

/-! ### The call that reads -/

/-- A guard and one of its calls. -/
structure Deciding where
  /-- The policy in force, which `setPolicy` replaces without waiting for the critical section. -/
  policy : SpendPolicy
  phase : Phase
  decision : Decision

/-- A read answers with the policy in force. -/
def InForce (policy : SpendPolicy) : (op : Op) → op.Answer → Prop
  | .policy, read => read = policy
  | _, _ => True

/-- The rail runs on a reservation under a policy that `holds` of the evaluation as well. Whenever the call
waits, `setPolicy` may be called any number of times. -/
def deciding (holds : Deciding → Prop) (platform : Platform) (intent : PaymentIntent) : Monitor Op.Answer Deciding where
  allowed s
    | .runExecutor _ => holds s
    | _ => True
  step s op ans s' := InForce s.policy op ans ∧ AnsweredOwn op ans ∧
    s'.phase = s.phase.advance platform intent op ans ∧ s'.decision = s.decision.advance op ans

/-- An authorization is a promise that the rail may run. -/
def Authorizes (holds : Deciding → Prop) (s : Deciding) (r : Throwing GuardResult) : Prop :=
  ∀ intentId policyResult mandateId, r = .ok (.authorized intentId policyResult mandateId) → holds s

/-- The budget that the call holds is that of the policy the payment was evaluated under. -/
def OnePolicy (s : Deciding) : Prop :=
  ∃ evaluated request, s.decision.evaluated = some evaluated ∧ s.phase.reservation = .fresh request ∧
    Under evaluated request

/-- The policy in force when the budget is asked for keeps the same budget as the one in force when the evaluation
began. -/
def Undisturbed (s : Deciding) : Prop :=
  ∃ evaluated reserved request, s.decision.evaluated = some evaluated ∧
    s.decision.reserved = some (reserved, request) ∧ SameBudget evaluated reserved

/-- What has been asked for is what is held. -/
structure Tracked (φ : Phase) (δ : Decision) : Prop where
  untaken : φ.reservation = .untaken → δ.reserved = none
  fresh : ∀ request, φ.reservation = .fresh request → ∃ policy, δ.reserved = some (policy, request)

theorem one_iff_undisturbed {s : Deciding} (tracked : Tracked s.phase s.decision) (asked : s.decision.Asked)
    (holding : s.phase.holding = true) : OnePolicy s ↔ Undisturbed s := by
  obtain ⟨-, policy, request, reserved, under⟩ := asked
  have fresh : s.phase.reservation = .fresh request := by
    unfold Phase.holding at holding
    split at holding
    · rename_i taken same _ _
      obtain ⟨_, kept⟩ := tracked.fresh taken same
      rw [reserved] at kept
      cases kept
      exact same
    · cases holding
  constructor
  · rintro ⟨evaluated, taken, read, same, one⟩
    rw [fresh] at same
    cases same
    exact ⟨evaluated, policy, request, read, reserved, under.iff_same.mp one⟩
  · rintro ⟨evaluated, _, _, read, same, budget⟩
    rw [reserved] at same
    cases same
    exact ⟨evaluated, request, read, fresh, under.iff_same.mpr budget⟩

/-- Only a reservation changes what is reserved. -/
theorem advance_unreserved {φ : Phase} {op : Op} {ans : op.Answer} (other : ∀ request, op ≠ .reserve request) :
    (φ.advance platform intent op ans).reservation = φ.reservation := by
  unfold Phase.advance
  split
  · unfold Phase.reserving
    split <;> first | rfl | exact absurd rfl (other _)
  · have moved : (φ.moved op ans).reservation = φ.reservation := by
      unfold Phase.moved
      split <;> rfl
    split_ifs
    · rw [(fail_reservation _).1, moved]
    · exact moved

theorem decided_unreserved {op : Op} {ans : op.Answer} (other : ∀ request, op ≠ .reserve request) :
    (δ.advance op ans).reserved = δ.reserved := by
  unfold Decision.advance
  split
  · rfl
  · split_ifs <;> rfl
  · exact absurd rfl (other _)
  · rfl

theorem Tracked.step {φ : Phase} {guard : VadunoGuard} {mode : Mode} (tracked : Tracked φ δ)
    (may : mayAsk platform guard mode intent φ op) (reads : reading.allowed δ op) :
    Tracked (φ.advance platform intent op ans) (δ.advance op ans) := by
  by_cases reserves : ∃ request, op = .reserve request
  · obtain ⟨request, rfl⟩ := reserves
    have unasked := tracked.untaken may.2.1
    obtain ⟨policy, latest⟩ : ∃ policy, δ.latest = some policy := by
      rcases reads with ⟨-, policy, taken, reserved, -⟩ | ⟨-, -, policy, latest, -⟩
      · rw [unasked] at reserved
        cases reserved
      · exact ⟨policy, latest⟩
    rw [Phase.advance_untaken may.2.1]
    have reserved : (δ.advance (.reserve request) ans).reserved = some (policy, request) := by
      change δ.reserved.or (δ.latest.map _) = _
      rw [unasked, latest]
      rfl
    constructor
    · intro untaken
      change reservationOf request ans = _ at untaken
      unfold reservationOf at untaken
      split at untaken <;> cases untaken
    · intro taken fresh
      change reservationOf request ans = _ at fresh
      unfold reservationOf at fresh
      split at fresh <;> cases fresh
      exact ⟨policy, reserved⟩
  · have other : ∀ request, op ≠ .reserve request := fun request same => reserves ⟨request, same⟩
    constructor
    · rw [advance_unreserved other, decided_unreserved other]
      exact tracked.untaken
    · rw [advance_unreserved other, decided_unreserved other]
      exact tracked.fresh

theorem decisions_under_one_policy (platform : Platform) (guard : VadunoGuard) (mode : Mode) (submitted : Submitted)
    (intent : PaymentIntent) (pays : ∀ intake, submitted.enter platform = .ok intake → intake.Pays intent)
    (policy : SpendPolicy) : (guard.submit platform mode submitted).Meets
      (deciding (fun s => OnePolicy s ↔ Undisturbed s) platform intent)
      (Authorizes fun s => OnePolicy s ↔ Undisturbed s) ⟨policy, .before false, .start⟩ := by
  unfold VadunoGuard.submit
  cases read : submitted.enter platform with
  | error e =>
    rintro intentId policyResult mandateId ⟨⟩
  | ok intake =>
    refine (Meets.simulate ((run_meets (pays intake read)).both (run_reads intake))
      (fun t s => s.phase = t.1 ∧ s.decision = t.2 ∧ Tracked t.1 t.2) ⟨rfl, rfl, ?_⟩ ?_ ?_).mono ?_
    · exact ⟨fun _ => rfl, by rintro _ ⟨⟩⟩
    · rintro ⟨φ, δ⟩ ⟨policy, _, _⟩ op ⟨rfl, rfl, tracked⟩ ⟨may, reads⟩
      cases op with
      | runExecutor payment => exact one_iff_undisturbed tracked reads may.2.1
      | _ => trivial
    · rintro ⟨φ, δ⟩ ⟨policy, _, _⟩ op ans ⟨policy', φ', δ'⟩ ⟨rfl, rfl, tracked⟩ ⟨may, reads⟩ ⟨-, own, advanced, decided⟩
      exact ⟨(φ', δ'), ⟨⟨advanced, own⟩, decided⟩, rfl, rfl, by
        rw [show φ' = _ from advanced, show δ' = _ from decided]
        exact tracked.step may reads⟩
    · rintro ⟨policy, _, _⟩ r ⟨⟨φ, δ⟩, ⟨rfl, rfl, tracked⟩, settled, asked⟩ intentId policyResult mandateId rfl
      exact one_iff_undisturbed tracked (asked _ _ _ rfl) settled.2.2.1

/-! ### A policy that is replaced -/

namespace Decisions.Sample
open Resolution

def payer : PaymentIntent := { Vaduno.Sample.intent "i-1" with mandateId := none }

/-- It keeps its budget in another currency. -/
def successor : SpendPolicy := { Vaduno.Sample.policy with id := "p-2", currency := "EUR" }

def answer (policy : SpendPolicy) : (op : Op) → op.Answer
  | .policy => policy
  | op => outside op

/-- `setPolicy` is called as soon as the evaluation has read the policy. -/
def oracle (s : Deciding) (op : Op) : op.Answer × Deciding :=
  let decision := s.decision.advance op (answer s.policy op)
  (answer s.policy op, {
    policy := if decision.evaluated.isSome then successor else s.policy
    phase := s.phase.advance Vaduno.Sample.platform payer op (answer s.policy op)
    decision := decision })

theorem oracle_agrees (holds : Deciding → Prop) (s : Deciding) (op : Op) :
    (deciding holds Vaduno.Sample.platform payer).step s op (oracle s op).1 (oracle s op).2 := by
  refine ⟨?_, ?_, rfl, rfl⟩
  · cases op <;> first | exact rfl | exact trivial
  · cases op <;> first | exact rfl | exact trivial

def start : Deciding := ⟨Vaduno.Sample.policy, .before false, .start⟩

def torn : Throwing GuardResult × Deciding :=
  (paying.submit Vaduno.Sample.platform .authorize (.cloned payment)).follow oracle start

def isAuthorized : GuardResult → Bool
  | .authorized .. => true
  | _ => false

def countedIn : Reservation → Option JsString
  | .fresh request => some request.currency
  | _ => none

theorem torn_currencies : torn.1.toOption.map isAuthorized = some true ∧
    torn.2.decision.evaluated.map (·.currency) = some (encode "USD") ∧
    countedIn torn.2.phase.reservation = some (encode "EUR") := by
  decide +kernel

theorem payment_decided : (paying.submit Vaduno.Sample.platform .authorize (.cloned payment)).Meets
    (deciding (fun s => OnePolicy s ↔ Undisturbed s) Vaduno.Sample.platform payer)
    (Authorizes fun s => OnePolicy s ↔ Undisturbed s) start :=
  decisions_under_one_policy Vaduno.Sample.platform paying .authorize (.cloned payment) payer
    (by rintro _ ⟨⟩ _ _ ⟨⟩; rfl) Vaduno.Sample.policy

/-- The payment is checked in one currency and counted in another. -/
theorem payment_counted_elsewhere : ¬∀ (platform : Platform) (guard : VadunoGuard) (mode : Mode)
    (submitted : Submitted) (intent : PaymentIntent) (policy : SpendPolicy),
    (∀ intake, submitted.enter platform = .ok intake → intake.Pays intent) →
    (guard.submit platform mode submitted).Meets (deciding OnePolicy platform intent) (Authorizes OnePolicy)
      ⟨policy, .before false, .start⟩ := by
  intro claimed
  obtain ⟨result, checked, counted⟩ := torn_currencies
  have one : Authorizes OnePolicy torn.2 torn.1 :=
    (claimed Vaduno.Sample.platform paying .authorize (.cloned payment) payer Vaduno.Sample.policy
      (by rintro _ ⟨⟩ _ _ ⟨⟩; rfl)).follow (oracle_agrees OnePolicy)
  have promised : OnePolicy torn.2 := by
    cases outcome : torn.1 with
    | error e =>
      rw [outcome] at result
      cases result
    | ok answered =>
      rw [outcome] at result
      cases answered with
      | authorized intentId policyResult mandateId => exact one intentId policyResult mandateId outcome
      | _ => cases result
  obtain ⟨evaluated, request, read, fresh, under⟩ := promised
  rw [read] at checked
  rw [fresh] at counted
  have same : some (encode "EUR") = some (encode "USD") :=
    counted.symm.trans ((congrArg some under.currency).trans checked)
  revert same
  decide

end Decisions.Sample
end Vaduno.Guard
