import Vaduno.Guard.Launch
import Vaduno.Guard.Rails
import Vaduno.X402.Fetch

/-! What a fetch that pays may do, step by step. The payer signs at most once, only for a requirement of the server's
own demand that passed every gate, and only once the guard has cleared exactly that payment; what it signed is sent at
most once, to the address that was asked first; and an error says what had been signed and sent by then. -/
namespace Vaduno.X402
open Ecma Enforce Guard Async

/-- What a call has done so far. -/
structure Purchase where
  /-- The answer to the request as it was made. -/
  probe : Option (Throwing Response)
  /-- The policies that the gates have read. -/
  looked : List SpendPolicy
  order : Option Order
  /-- How far the guard's call has got, and what it has achieved. -/
  phase : Phase
  launch : Launch
  /-- What the payer answered. -/
  signed : Option (Throwing JsString)
  /-- The answer to the paid request. -/
  answered : Option (Throwing Response)
  notified : Bool

section Monitor
variable (web : WebPlatform) (opts : X402FetchOptions) (input : RequestInput) (init : Option RequestInit)

/-- What a first answer demands, as it is chosen from. -/
def Demands (first : Response) : Demand → Prop
  | .v1 requirement => first.headers.get paymentRequiredHeader = none ∧ ∃ parsed, readBody web first = .ok parsed ∧
    opts.selected web.toPlatform parsed.accepts.items = .ok (some requirement)
  | .v2 requirement resource extensions => ∃ header v2 parsed,
    first.headers.get paymentRequiredHeader = some header ∧ opts.v2 = some v2 ∧
    parsePaymentRequiredHeader web.stack header = .ok parsed ∧ resource = parsed.resource ∧
    extensions = parsed.extensions ∧ v2.selected web.toPlatform parsed.accepts.items = .ok (some requirement) ∧
    (isPayToRole requirement.payTo.1 = true → requirement.payTo.1 ∈ v2.allowPayToRoles.getD [])

/-- The registry's rule for the version of a demand. -/
def Trusts (a : AssetInfo) : Demand → Prop
  | .v1 requirement => trusts web requirement.terms a = true
  | .v2 requirement resource _ => trustsV2 web (requirement.terms resource) a = true

/-- Something names the chains. -/
def ChainGated (looked : List SpendPolicy) : Prop :=
  opts.allowChainBlind = true ∨ opts.assets.isSome = true ∨ ∃ policy ∈ looked, policy.networks.allow.isSome = true

/-- No host pattern widens what recipients are admitted. -/
def RecipientGated (looked : List SpendPolicy) : Prop :=
  opts.allowHostOnlyMerchantPolicy = true ∨
    ∃ policy ∈ looked, ∀ pattern ∈ policy.merchants.allow.getD [], isHostFormPattern web.toPlatform pattern = false

def SameOrigin (claimed actual : JsString) : Prop :=
  opts.requireResourceOriginMatch = some false ∨ ∃ origin, web.origin claimed = some origin ∧
    web.origin actual = some origin

/-- The currency is the one that a trusted entry gives the token. -/
def TokenBound (order : Order) : Prop :=
  ∀ assets, opts.assets = some assets → ∃ a ∈ assets, Trusts web a order.demand ∧
    order.intent.payment.amount.currency = web.toUpperCase a.symbol

/-- The intent is the demand's, at the address that is contacted. -/
structure Intends (order : Order) : Prop where
  agentId : order.intent.payment.agentId = opts.agentId
  merchant : order.intent.payment.merchant = ⟨order.demand.terms.payTo, some order.request.url⟩
  amount : order.intent.payment.amount.amountMinor = parseAtomicAmount web.toPlatform order.demand.terms.amount
  network : order.intent.payment.network = some order.demand.terms.network
  rail : order.intent.payment.rail = encode "x402"
  category : order.intent.payment.category = opts.category

/-- What was chosen of the demand has passed every gate. -/
structure Offered (p : Purchase) (order : Order) : Prop where
  request : normalizeRequest input init = .ok order.request
  demanded : ∃ first, p.probe = some (.ok first) ∧ first.status = 402 ∧ Demands web opts first order.demand
  chain : ChainGated opts p.looked
  recipient : RecipientGated web opts p.looked
  origin : SameOrigin web opts order.demand.terms.resourceClaimed order.request.url
  token : TokenBound web opts order
  intent : Intends web opts order

namespace Purchase

def start : Purchase := ⟨none, [], none, .before false, .start, none, none, false⟩

/-- The guard's own answer to one of its operations. -/
def guarded (p : Purchase) (order : Order) (op : Op) (ans : op.Answer) : Purchase :=
  { p with
    phase := p.phase.advance web.toPlatform order.intent.payment op ans
    launch := p.launch.advance op ans }

/-- The executor has settled. -/
def railed (p : Purchase) (order : Order) (outcome : Throwing JsValue) : Purchase :=
  p.guarded web order (.runExecutor order.intent.payment) outcome

/-- What the payer's answer comes to where it cannot be sent. -/
def unsendable : Throwing JsString → Option Thrown
  | .error e => some e
  | .ok header => if (web.headerValue header).isNone then some .typeError else none

def advance (p : Purchase) : (op : X402Op) → op.Answer → Purchase
  | .guard op, ans =>
    match p.order, op, ans with
    | none, .policy, policy => { p with looked := policy :: p.looked }
    | none, _, _ => p
    | some order, op, ans => p.guarded web order op ans
  | .fetch .., ans =>
    match p.order with
    | none => { p with probe := some ans }
    | some order => { p.railed web order (ans.map fun _ => .undefined) with answered := some ans }
  | .execute order, _ => { p with order := some order }
  | .pay _, ans =>
    match p.order, unsendable web ans with
    | some order, some e => { p.railed web order (.error e) with signed := some ans }
    | _, _ => { p with signed := some ans }
  | .onSettled .., _ => { p with notified := true }
  | _, _ => p

/-- The guard has cleared the payment, and holds a reservation for it that nothing has been done with. -/
structure Warranted (p : Purchase) (order : Order) : Prop where
  current : p.order = some order
  cleared : p.launch.Cleared web.toPlatform opts.guard order.intent.payment
  started : p.launch.started = true
  inside : p.launch.inside = true
  critical : p.phase.inside = true
  holding : p.phase.holding = true
  uninterrupted : p.phase.interrupted = false

/-- The request as it was, and one header beside that carries what was signed. -/
def Paying (p : Purchase) (url : JsString) (sent : SentInit) : Prop :=
  ∃ order header value, p.Warranted web opts order ∧ p.signed = some (.ok header) ∧ p.answered = none ∧
    web.headerValue header = some value ∧ url = order.request.url ∧
    sent = { order.request.init with
      headers := order.request.init.headers.set order.demand.sentHeaderName value }

def mayAsk (p : Purchase) : X402Op → Prop
  | .guard op => (p.order = none ∧ op = .policy) ∨ ∃ order, p.order = some order ∧ ¬isRail op ∧
    Guard.mayAsk web.toPlatform opts.guard .execute order.intent.payment p.phase op ∧
    (Launch.monitor web.toPlatform opts.guard order.intent.payment).allowed p.launch op ∧
    -- nothing is given back once something is signed
    (∀ reservationId, op = .releaseSpend reservationId → p.signed = none)
  | .fetch url sent => (p.probe = none ∧ p.order = none ∧ normalizeRequest input init = .ok ⟨url, sent⟩) ∨
    p.Paying web opts url sent
  | .randomUUID | .requestedAt => p.order = none
  | .execute order => p.order = none ∧ Offered web opts input init p order
  | .pay demand => p.signed = none ∧ ∃ order, p.Warranted web opts order ∧ demand = order.demand
  | .onSettled settlement intentId _ => ∃ order response, p.order = some order ∧ intentId = order.intent.payment.id ∧
    p.answered = some (.ok response) ∧ settlement =
      decodeSettlementResponse web (response.headers.get order.demand.settlementHeaderName)

/-- A limiter answers for the reservation it was asked for. -/
def AnsweredOwn : (op : X402Op) → op.Answer → Prop
  | .guard op, ans => Guard.AnsweredOwn op ans
  | _, _ => True

def monitor : Monitor X402Op.Answer Purchase where
  allowed p op := p.mayAsk web opts input init op
  step p op ans p' := p' = p.advance web op ans ∧ AnsweredOwn op ans

/-- What the result of a call says of it. -/
def Concluded (p : Purchase) : Except X402Error Response → Prop
  | .ok response => (p.probe = some (.ok response) ∧ response.status ≠ 402 ∧ p.order = none) ∨
    (p.answered = some (.ok response) ∧ response.ok = true ∧ p.phase.committed = true)
  | .error (.parse _) | .error (.refused ..) => p.order = none
  | .error (.blocked ..) => p.signed = none ∨ p.phase.unreported = true
  | .error (.failed _ true) => p.phase.committed = true ∧ ∃ response, p.answered = some (.ok response) ∧
    response.ok = false
  | .error (.failed _ false) => ∀ response, p.answered ≠ some (.ok response)
  | .error (.thrown _) => p.signed = none ∨ p.phase.unreported = true ∨ p.notified = true

end Purchase
end Monitor

/-! ### The guard's call, with the executor of the adapter -/

section Charge
variable {web : WebPlatform} {opts : X402FetchOptions} {input : RequestInput} {init : Option RequestInit}
  {order : Order} {p : Purchase} {kept : Option Paid}

/-- The rail as the guard's call knows it, and what has been signed, sent and kept. -/
def RailAgrees (web : WebPlatform) (order : Order) (p : Purchase) (kept : Option Paid) : Rail → Prop
  | .idle => p.signed = none ∧ p.answered = none
  | .ran (.ok _) => ∃ response, p.answered = some (.ok response) ∧ kept = some ⟨response,
      decodeSettlementResponse web (response.headers.get order.demand.settlementHeaderName)⟩
  | .ran (.error _) => ∀ response, p.answered ≠ some (.ok response)

/-- The guard's call is under way for an order. -/
structure Underway (web : WebPlatform) (order : Order) (kept : Option Paid) (p : Purchase) : Prop where
  current : p.order = some order
  rail : RailAgrees web order p kept p.phase.rail
  quiet : p.notified = false

/-- What the guard's own two monitors know. -/
abbrev Linked (web : WebPlatform) (order : Order) (φ : Phase × Launch) (kept : Option Paid) (p : Purchase) : Prop :=
  φ = (p.phase, p.launch) ∧ Underway web order kept p

/-- The monitor of the guard's call. -/
abbrev guardMonitor (web : WebPlatform) (opts : X402FetchOptions) (order : Order) :
    Monitor Op.Answer (Phase × Launch) :=
  (Guard.monitor web.toPlatform opts.guard .execute order.intent.payment).both
    (Launch.monitor web.toPlatform opts.guard order.intent.payment)

theorem launch_advance_rail {l : Launch} {payment : PaymentIntent} {outcome : Throwing JsValue} :
    l.advance (.runExecutor payment) outcome = l := by
  unfold Launch.advance
  split_ifs <;> rfl

section Rail
variable {platform : Platform} {payment : PaymentIntent} {φ : Phase}

theorem phase_advance_rail {outcome : Throwing JsValue} (holding : φ.holding = true) :
    (φ.advance platform payment (.runExecutor payment) outcome).rail = .ran outcome := by
  obtain ⟨-, request, fresh⟩ := fresh_of_holding holding
  have taken : φ.reservation ≠ .untaken := by
    rw [fresh]
    intro untaken
    cases untaken
  rw [Phase.advance_taken taken]
  split_ifs
  · exact (fail_reservation _).2.2.1
  · rfl

/-- Only the executor moves the rail. -/
theorem phase_rail_other {op : Op} {ans : op.Answer} (other : ¬isRail op) :
    (φ.advance platform payment op ans).rail = φ.rail := by
  have unmoved : (φ.moved op ans).rail = φ.rail := by
    refine moved_rail fun payment same => ?_
    subst same
    exact other trivial
  by_cases untaken : φ.reservation = .untaken
  · rw [Phase.advance_untaken untaken]
    unfold Phase.reserving
    split <;> rfl
  · rw [Phase.advance_taken untaken]
    split_ifs
    · exact (fail_reservation _).2.2.1.trans unmoved
    · exact unmoved

end Rail

theorem served_other {op : Op} (other : ¬isRail op) :
    served web order kept op = (do return (← X402Program.ask (.guard op), kept)) := by
  cases op with
  | runExecutor payment => exact absurd trivial other
  | _ => rfl

section Serves
variable (current : p.order = some order)
include current

theorem advance_guarded {op : Op} {ans : op.Answer} : p.advance web (.guard op) ans = p.guarded web order op ans := by
  unfold Purchase.advance
  dsimp only
  rw [current]

end Serves

theorem guarded_serves {op : Op} (underway : Underway web order kept p) (other : ¬isRail op)
    (allowed : (guardMonitor web opts order).allowed (p.phase, p.launch) op) :
    (served web order kept op).Meets (Purchase.monitor web opts input init)
      (Serves (guardMonitor web opts order) (Linked web order) (p.phase, p.launch) op) p := by
  have unsigned : ∀ reservationId, op = .releaseSpend reservationId → p.signed = none := by
    rintro reservationId rfl
    have idle := idle_of_holding allowed.1.2.1
    have agrees := underway.rail
    rw [idle] at agrees
    exact agrees.1
  rw [served_other other]
  refine ⟨.inr ⟨order, underway.current, other, allowed.1, allowed.2, unsigned⟩, ?_⟩
  rintro ans p' ⟨rfl, own⟩
  rw [advance_guarded underway.current]
  refine ⟨(_, _), ⟨⟨rfl, own⟩, rfl⟩, rfl, underway.current, ?_, underway.quiet⟩
  change RailAgrees web order _ kept (p.phase.advance web.toPlatform order.intent.payment op ans).rail
  rw [phase_rail_other other]
  exact underway.rail

theorem advance_fetch {url : JsString} {sent : SentInit} {ans : Throwing Response} (current : p.order = some order) :
    p.advance web (.fetch url sent) ans =
      { p.railed web order (ans.map fun _ => .undefined) with answered := some ans } := by
  unfold Purchase.advance
  dsimp only
  rw [current]

theorem advance_pay_unsendable {demand : Demand} {ans : Throwing JsString} {e : Thrown} (current : p.order = some order)
    (unsendable : Purchase.unsendable web ans = some e) :
    p.advance web (.pay demand) ans = { p.railed web order (.error e) with signed := some ans } := by
  unfold Purchase.advance
  dsimp only
  rw [current, unsendable]

theorem advance_pay_sendable {demand : Demand} {ans : Throwing JsString}
    (sendable : Purchase.unsendable web ans = none) :
    p.advance web (.pay demand) ans = { p with signed := some ans } := by
  unfold Purchase.advance
  dsimp only
  rw [sendable]
  cases p.order <;> rfl

/-- What the guard's monitors make of an executor that has settled. -/
theorem railed_serves {q : Purchase} {outcome : Throwing JsValue} {signed : Option (Throwing JsString)}
    {answered : Option (Throwing Response)} (warranted : p.Warranted web opts order) (quiet : p.notified = false)
    (same : q = { p.railed web order outcome with signed := signed, answered := answered })
    (agrees : RailAgrees web order q kept (.ran outcome)) :
    Serves (guardMonitor web opts order) (Linked web order) (p.phase, p.launch) (.runExecutor order.intent.payment) q
      (.ok (outcome, kept) : Except X402Error (Throwing JsValue × Option Paid)) := by
  subst same
  refine ⟨(_, _), ⟨⟨rfl, trivial⟩, rfl⟩, rfl, warranted.current, ?_, quiet⟩
  change RailAgrees web order _ kept
    (p.phase.advance web.toPlatform order.intent.payment (.runExecutor order.intent.payment) outcome).rail
  rw [phase_advance_rail warranted.holding]
  exact agrees

theorem sendPaid_serves {header value : JsString} (underway : p.notified = false) (unanswered : p.answered = none)
    (warranted : p.Warranted web opts order) (signed : p.signed = some (.ok header))
    (sendable : web.headerValue header = some value) :
    (sendPaid web order value).Meets (Purchase.monitor web opts input init)
      (Serves (guardMonitor web opts order) (Linked web order) (p.phase, p.launch)
        (.runExecutor order.intent.payment)) p := by
  unfold sendPaid
  refine (meets_bind _ _ _).mpr
    ⟨.inr ⟨order, header, value, warranted, signed, unanswered, sendable, rfl, rfl⟩, ?_⟩
  rintro paid p' ⟨rfl, -⟩
  rw [advance_fetch warranted.current]
  cases paid with
  | error e => exact railed_serves warranted underway rfl (by rintro response ⟨⟩)
  | ok response => exact railed_serves warranted underway rfl ⟨response, rfl, rfl⟩

/-- An executor that never got an answer to a paid request. -/
theorem unpaid_agrees {q : Purchase} {e : Thrown} (unanswered : q.answered = none) :
    RailAgrees web order q none (.ran (.error e)) := by
  intro response paid
  rw [unanswered] at paid
  cases paid

theorem sendSigned_serves {header : JsString} (warranted : p.Warranted web opts order) (quiet : p.notified = false)
    (unanswered : p.answered = none) :
    (sendSigned web order header).Meets (Purchase.monitor web opts input init)
      (Serves (guardMonitor web opts order) (Linked web order) (p.phase, p.launch)
        (.runExecutor order.intent.payment)) (p.advance web (.pay order.demand) (.ok header)) := by
  have unsendable : Purchase.unsendable web (.ok header) =
    if (web.headerValue header).isNone then some .typeError else none := rfl
  unfold sendSigned
  cases sendable : web.headerValue header with
  | none =>
    rw [sendable] at unsendable
    rw [advance_pay_unsendable warranted.current unsendable]
    exact railed_serves warranted quiet rfl (unpaid_agrees unanswered)
  | some value =>
    rw [sendable] at unsendable
    rw [advance_pay_sendable unsendable]
    have still : Purchase.Warranted web opts { p with signed := some (.ok header) } order :=
      ⟨warranted.current, warranted.cleared, warranted.started, warranted.inside, warranted.critical,
        warranted.holding, warranted.uninterrupted⟩
    exact sendPaid_serves quiet unanswered still rfl sendable

theorem executor_serves (underway : Underway web order kept p) (warranted : p.Warranted web opts order) :
    (executor web order).Meets (Purchase.monitor web opts input init)
      (Serves (guardMonitor web opts order) (Linked web order) (p.phase, p.launch)
        (.runExecutor order.intent.payment)) p := by
  obtain ⟨unsigned, unanswered⟩ : p.signed = none ∧ p.answered = none := by
    have agrees := underway.rail
    rw [idle_of_holding warranted.holding] at agrees
    exact agrees
  unfold executor
  refine (meets_bind _ _ _).mpr ⟨⟨unsigned, order, warranted, rfl⟩, ?_⟩
  rintro header p' ⟨rfl, -⟩
  cases header with
  | error e =>
    rw [advance_pay_unsendable underway.current rfl]
    exact railed_serves warranted underway.quiet rfl (unpaid_agrees unanswered)
  | ok header => exact sendSigned_serves warranted underway.quiet unanswered

/-! ### The result of the guard's call -/

/-- What the guard's call comes to, with what it left behind. -/
theorem submit_carried {first : Option (Throwing Response)} {looked : List SpendPolicy} :
    ((opts.guard.submit web.toPlatform .execute order.intent.submitted).carry (served web order) none).Meets
      (Purchase.monitor web opts input init)
      (Carried (Linked web order) fun φ r =>
        Settled .execute order.intent.payment φ.1 r ∧
          Launch.Paid web.toPlatform opts.guard order.intent.payment φ.2 r)
      { Purchase.start with probe := first, looked := looked, order := some order } := by
  rw [X402Intent.submitted, submit_cloned]
  have pays : (inspected order.intent.heap (.ref 0) order.intent.payment).Pays order.intent.payment := inspected_pays
  generalize inspected order.intent.heap (.ref 0) order.intent.payment = intake at pays
  have course : (opts.guard.run web.toPlatform .execute intake).Meets
      (Guard.monitor web.toPlatform opts.guard .execute order.intent.payment)
      (Settled .execute order.intent.payment) (.before false) := run_meets pays
  have launches : (opts.guard.run web.toPlatform .execute intake).Meets
      (Launch.monitor web.toPlatform opts.guard order.intent.payment)
      (Launch.Paid web.toPlatform opts.guard order.intent.payment) .start := VadunoGuard.run_launches pays
  refine Meets.carry (course.both launches) (Linked web order) ?_ ?_
  · rintro φ kept p op ⟨rfl, underway⟩ allowed
    by_cases rail : isRail op
    · cases op with
      | runExecutor payment =>
        obtain ⟨⟨critical, holding, uninterrupted, -, rfl⟩, inside, cleared, started, -⟩ := allowed
        exact executor_serves underway
          ⟨underway.current, cleared, started, inside, critical, holding, uninterrupted⟩
      | _ => cases rail
    · exact guarded_serves underway rail allowed
  · exact ⟨rfl, rfl, ⟨rfl, rfl⟩, rfl⟩

theorem blocked_concluded {result : GuardResult} {policyResult : PolicyResult} (underway : Underway web order kept p)
    (unspent : p.phase.rail = .idle ∨ p.phase.unreported = true) :
    p.Concluded (.error (.blocked result policyResult)) := by
  rcases unspent with idle | unreported
  · have agrees := underway.rail
    rw [idle] at agrees
    exact .inl agrees.1
  · exact .inr unreported

/-- Who is told of the settlement may throw, which is then what the call comes to. -/
def Notified (p : Purchase) (p' : Purchase) : Except X402Error Unit → Prop
  | .ok _ => p'.phase = p.phase ∧ p'.answered = p.answered
  | .error e => p'.Concluded (.error e)

theorem notify_meets {response : Response} {auditDegraded : Bool} (current : p.order = some order)
    (answered : p.answered = some (.ok response)) :
    (notify opts order (decodeSettlementResponse web (response.headers.get order.demand.settlementHeaderName))
      auditDegraded).Meets (Purchase.monitor web opts input init) (Notified p) p := by
  unfold notify
  split_ifs
  · refine (meets_bind _ _ _).mpr ⟨⟨order, response, current, rfl, answered, rfl⟩, ?_⟩
    rintro notified p' ⟨rfl, -⟩
    cases notified with
    | ok _ => exact ⟨rfl, rfl⟩
    | error e => exact .inr (.inr rfl)
  · exact ⟨rfl, rfl⟩

theorem passOn_meets {response : Response} (answered : p.answered = some (.ok response))
    (committed : p.phase.committed = true) :
    (passOn order response).Meets (Purchase.monitor web opts input init) Purchase.Concluded p := by
  unfold passOn
  split_ifs with fine
  · exact .inr ⟨answered, fine, committed⟩
  · exact ⟨committed, response, answered, Bool.not_eq_true _ ▸ fine⟩

theorem finish_meets {result : GuardResult} (underway : Underway web order kept p)
    (settled : Settled .execute order.intent.payment p.phase (.ok result)) :
    (finishGuardResult opts order kept result).Meets (Purchase.monitor web opts input init) Purchase.Concluded p := by
  have agrees := underway.rail
  unfold finishGuardResult
  cases result with
  | executed intentId policyResult value degraded =>
    obtain ⟨-, ran, committed⟩ := settled
    rw [ran.rail] at agrees
    obtain ⟨response, answered, rfl⟩ := agrees
    refine Meets.bind (notify_meets underway.current answered) ?_ ?_
    · rintro p' _ ⟨phase, same⟩
      exact passOn_meets (same.trans answered) (by rw [phase]; exact committed)
    · exact fun p' e concluded => concluded
  | denied intentId policyResult => exact blocked_concluded underway settled.1
  | approvalRejected intentId policyResult => exact blocked_concluded underway (.inl settled.2)
  | replayed intentId mandateId original =>
    rw [show p.phase.rail = .idle from settled] at agrees
    intro response paid
    rw [agrees.2] at paid
    cases paid
  | authorized intentId policyResult mandateId => cases settled.2.1
  | failed intentId policyResult error =>
    obtain ⟨-, err, ran⟩ := settled
    rw [ran.rail] at agrees
    exact agrees

/-- Before the guard is called: the first answer, and the policies the gates have read. -/
def browsing (first : Response) (looked : List SpendPolicy) : Purchase :=
  { Purchase.start with probe := some (.ok first), looked := looked }

theorem charge_meets {first : Response} {looked : List SpendPolicy}
    (offered : Offered web opts input init (browsing first looked) order) :
    (charge web opts order).Meets (Purchase.monitor web opts input init) Purchase.Concluded
      (browsing first looked) := by
  unfold charge
  refine (meets_bind _ _ _).mpr ⟨⟨rfl, offered⟩, ?_⟩
  rintro _ p ⟨rfl, -⟩
  have carried := @submit_carried web opts input init order (some (.ok first)) looked
  generalize (opts.guard.submit web.toPlatform .execute order.intent.submitted).carry (served web order) none =
    call at carried ⊢
  refine Meets.bind carried ?_ ?_
  · rintro p ⟨result, kept⟩ ⟨φ, ⟨rfl, underway⟩, settled, -⟩
    cases result with
    | ok result => exact finish_meets underway settled
    | error e =>
      rcases settled.1 with idle | unreported
      · have agrees := underway.rail
        rw [idle] at agrees
        exact .inl agrees.1
      · exact .inr (.inl unreported)
  · rintro p e failed
    cases failed

/-! ### The way to the guard -/

/-- A gate that lets through, having read some policies, or ends the call. -/
def Passes (first : Response) (looked : List SpendPolicy) (fact : List SpendPolicy → α → Prop) (p : Purchase) :
    Except X402Error α → Prop
  | .ok a => ∃ more, p = browsing first (more ++ looked) ∧ fact (more ++ looked) a
  | .error e => p.Concluded (.error e)

/-- The rule for a gate and what comes after it. -/
theorem passes_bind {first : Response} {looked : List SpendPolicy} {fact : List SpendPolicy → α → Prop}
    {gate : X402Program α} {rest : α → X402Program β} {post : Purchase → Except X402Error β → Prop}
    (passes : gate.Meets (Purchase.monitor web opts input init) (Passes first looked fact) (browsing first looked))
    (goes : ∀ more a, fact (more ++ looked) a →
      (rest a).Meets (Purchase.monitor web opts input init) post (browsing first (more ++ looked)))
    (ends : ∀ p e, p.Concluded (.error e) → post p (.error e)) :
    (gate >>= rest).Meets (Purchase.monitor web opts input init) post (browsing first looked) := by
  refine Meets.bind passes ?_ ends
  rintro p a ⟨more, rfl, holds⟩
  exact goes more a holds

section Gates
variable {first : Response} {looked : List SpendPolicy}

theorem assertChainGated_passes {network : JsString} :
    (assertChainGated opts network).Meets (Purchase.monitor web opts input init)
      (Passes first looked fun looked _ => ChainGated opts looked) (browsing first looked) := by
  unfold assertChainGated
  split_ifs with configured
  · refine ⟨[], rfl, ?_⟩
    rcases Bool.or_eq_true _ _ ▸ configured with blind | listed
    · exact .inl blind
    · exact .inr (.inl listed)
  · refine (meets_bind _ _ _).mpr ⟨.inl ⟨rfl, rfl⟩, ?_⟩
    rintro policy p ⟨rfl, -⟩
    change Meets _ _ (ite _ _ _) _
    split_ifs with named
    · exact ⟨[policy], rfl, .inr (.inr ⟨policy, List.mem_cons_self, named⟩)⟩
    · exact rfl

theorem assertRecipientGated_passes {payTo : JsString} :
    (assertRecipientGated web opts payTo).Meets (Purchase.monitor web opts input init)
      (Passes first looked fun looked _ => RecipientGated web opts looked) (browsing first looked) := by
  unfold assertRecipientGated
  split_ifs with allowed
  · exact ⟨[], rfl, .inl allowed⟩
  · refine (meets_bind _ _ _).mpr ⟨.inl ⟨rfl, rfl⟩, ?_⟩
    rintro policy p ⟨rfl, -⟩
    change Meets _ _ (ite _ _ _) _
    split_ifs with none
    · refine ⟨[policy], rfl, .inr ⟨policy, List.mem_cons_self, fun pattern listed => ?_⟩⟩
      have admitted := List.filter_eq_nil_iff.mp none pattern listed
      exact Bool.not_eq_true _ ▸ admitted
    · exact rfl

theorem assertSameOrigin_passes {claim claimed actual : JsString} :
    (assertSameOrigin web opts claim claimed actual).Meets (Purchase.monitor web opts input init)
      (Passes first looked fun _ _ => SameOrigin web opts claimed actual) (browsing first looked) := by
  unfold assertSameOrigin
  split_ifs with mismatch
  · exact rfl
  · refine ⟨[], rfl, ?_⟩
    by_cases required : opts.requireResourceOriginMatch.getD true = true
    · right
      rw [required, Bool.true_and, Bool.not_eq_true] at mismatch
      simp only [Bool.or_eq_false_iff, decide_eq_false_iff_not, ne_eq, not_not] at mismatch
      obtain ⟨⟨claims, -⟩, same⟩ := mismatch
      cases found : web.origin claimed with
      | none =>
        rw [found] at claims
        cases claims
      | some origin => exact ⟨origin, rfl, by rw [← same, found]⟩
    · left
      cases given : opts.requireResourceOriginMatch with
      | none => rw [given] at required; exact absurd rfl required
      | some required' =>
        rw [given] at required
        exact congrArg some (Bool.not_eq_true _ ▸ required)

theorem trustedSymbol_passes {rule : AssetInfo → Bool} {terms : Terms} :
    (trustedSymbol opts rule terms).Meets (Purchase.monitor web opts input init)
      (Passes first looked fun _ currency => ∀ assets, opts.assets = some assets →
        ∃ a ∈ assets, rule a = true ∧ currency = some a.symbol) (browsing first looked) := by
  unfold trustedSymbol
  cases listed : opts.assets with
  | none => exact ⟨[], rfl, by rintro assets ⟨⟩⟩
  | some assets =>
    cases found : assets.find? rule with
    | none =>
      dsimp only
      rw [found]
      exact rfl
    | some a =>
      dsimp only
      rw [found]
      refine ⟨[], rfl, ?_⟩
      rintro assets ⟨⟩
      exact ⟨a, List.mem_of_find?_eq_some found, List.find?_some found, rfl⟩

theorem assertNoRole_passes {v2 : X402V2Options} {payTo : JsString} :
    (assertNoRole v2 payTo).Meets (Purchase.monitor web opts input init)
      (Passes first looked fun _ _ => isPayToRole payTo = true → payTo ∈ v2.allowPayToRoles.getD [])
      (browsing first looked) := by
  unfold assertNoRole
  split_ifs with refused
  · exact rfl
  · refine ⟨[], rfl, fun role => ?_⟩
    simpa [role] using refused

/-- The fields of an intent that are not the requirement's. -/
structure OwnFields (opts : X402FetchOptions) (requestUrl : JsString) (currency : Option JsString)
    (fields : RequirementToIntentOptions) : Prop where
  agentId : fields.agentId = opts.agentId
  requestUrl : fields.requestUrl = requestUrl
  currency : fields.currency = currency
  category : fields.category = opts.category

theorem orThrow_passes {r : Throwing α} : (X402Program.orThrow r).Meets (Purchase.monitor web opts input init)
    (Passes first looked fun _ a => r = .ok a) (browsing first looked) := by
  cases r with
  | ok a => exact ⟨[], rfl, rfl⟩
  | error e => exact .inl rfl

theorem orFail_passes {r : Parsed α} : (X402Program.orFail r).Meets (Purchase.monitor web opts input init)
    (Passes first looked fun _ a => r = .ok a) (browsing first looked) := by
  cases r with
  | ok a => exact ⟨[], rfl, rfl⟩
  | error e => exact rfl

theorem intentOptions_passes {requestUrl : JsString} {currency : Option JsString}
    {mandateId : Throwing (Option JsString)} :
    (intentOptions opts requestUrl currency mandateId).Meets (Purchase.monitor web opts input init)
      (Passes first looked fun _ fields => OwnFields opts requestUrl currency fields) (browsing first looked) := by
  unfold intentOptions
  refine (meets_bind _ _ _).mpr ⟨rfl, ?_⟩
  rintro intentId p ⟨rfl, -⟩
  change Meets _ _ (_ >>= _) (browsing first looked)
  cases mandateId with
  | error e => exact .inl rfl
  | ok mandateId =>
    refine (meets_bind _ _ _).mpr ⟨rfl, ?_⟩
    rintro requestedAt p ⟨rfl, -⟩
    cases requestedAt with
    | error e => exact .inl rfl
    | ok requestedAt => exact ⟨[], rfl, rfl, rfl, rfl, rfl⟩

end Gates

theorem ChainGated.more {looked : List SpendPolicy} (gated : ChainGated opts looked) (more : List SpendPolicy) :
    ChainGated opts (more ++ looked) := by
  obtain blind | listed | ⟨policy, seen, named⟩ := gated
  · exact .inl blind
  · exact .inr (.inl listed)
  · exact .inr (.inr ⟨policy, List.mem_append_right _ seen, named⟩)

theorem RecipientGated.more {looked : List SpendPolicy} (gated : RecipientGated web opts looked)
    (more : List SpendPolicy) : RecipientGated web opts (more ++ looked) := by
  obtain allowed | ⟨policy, seen, named⟩ := gated
  · exact .inl allowed
  · exact .inr ⟨policy, List.mem_append_right _ seen, named⟩

theorem termsToIntent_intends {demand : Demand} {own versioned : List (JsString × GraphValue)}
    {fields : RequirementToIntentOptions} {currency : Option JsString} {request : NormalizedRequest}
    (own_fields : OwnFields opts request.url currency fields) :
    Intends web opts ⟨demand, termsToIntent web.toPlatform demand.terms own versioned fields, request⟩ where
  agentId := own_fields.agentId
  merchant := by
    change MerchantRef.mk _ (some fields.requestUrl) = _
    rw [own_fields.requestUrl]
  amount := rfl
  network := rfl
  rail := rfl
  category := own_fields.category

theorem termsToIntent_bound {demand : Demand} {own versioned : List (JsString × GraphValue)}
    {fields : RequirementToIntentOptions} {currency : Option JsString} {request : NormalizedRequest}
    {rule : AssetInfo → Bool} (own_fields : OwnFields opts request.url currency fields)
    (symbol : ∀ assets, opts.assets = some assets → ∃ a ∈ assets, rule a = true ∧ currency = some a.symbol)
    (trusted : ∀ a, rule a = true → Trusts web a demand) :
    TokenBound web opts ⟨demand, termsToIntent web.toPlatform demand.terms own versioned fields, request⟩ := by
  intro assets listed
  obtain ⟨a, member, rules, known⟩ := symbol assets listed
  refine ⟨a, member, trusted a rules, ?_⟩
  change web.toUpperCase ((fields.currency.orElse fun _ => _).getD _) = _
  rw [own_fields.currency, known]
  rfl

section Paths
variable {first : Response} {looked : List SpendPolicy} {request : NormalizedRequest}
  (normalized : normalizeRequest input init = .ok request) (required : first.status = 402)
include normalized required

theorem payV1_meets (carrier : first.headers.get paymentRequiredHeader = none) :
    (payV1 web opts request first).Meets (Purchase.monitor web opts input init) Purchase.Concluded
      (browsing first looked) := by
  unfold payV1
  refine passes_bind orFail_passes ?_ fun _ _ concluded => concluded
  intro parsing parsed read
  refine passes_bind orThrow_passes ?_ fun _ _ concluded => concluded
  intro selecting chosen selected
  cases chosen with
  | none => exact rfl
  | some requirement =>
    refine passes_bind assertChainGated_passes ?_ fun _ _ concluded => concluded
    intro more _ chain
    refine passes_bind assertRecipientGated_passes ?_ fun _ _ concluded => concluded
    intro more₁ _ recipient
    refine passes_bind assertSameOrigin_passes ?_ fun _ _ concluded => concluded
    intro more₂ _ origin
    refine passes_bind trustedSymbol_passes ?_ fun _ _ concluded => concluded
    intro more₃ currency symbol
    refine passes_bind intentOptions_passes ?_ fun _ _ concluded => concluded
    intro more₄ fields own
    refine charge_meets ⟨normalized, ⟨first, rfl, required, carrier, parsed, read, selected⟩, ?_, ?_, origin, ?_, ?_⟩
    · exact (((chain.more _).more _).more _).more _
    · exact ((recipient.more _).more _).more _
    · exact termsToIntent_bound own symbol fun _ rules => rules
    · exact termsToIntent_intends own

theorem payV2_meets {v2Header : JsString} (carrier : first.headers.get paymentRequiredHeader = some v2Header) :
    (payV2 web opts request v2Header).Meets (Purchase.monitor web opts input init) Purchase.Concluded
      (browsing first looked) := by
  unfold payV2
  cases configured : opts.v2 with
  | none => exact rfl
  | some v2 =>
    refine passes_bind orFail_passes ?_ fun _ _ concluded => concluded
    intro parsing parsed read
    refine passes_bind orThrow_passes ?_ fun _ _ concluded => concluded
    intro selecting chosen selected
    cases chosen with
    | none => exact rfl
    | some requirement =>
      refine passes_bind assertChainGated_passes ?_ fun _ _ concluded => concluded
      intro more _ chain
      refine passes_bind assertRecipientGated_passes ?_ fun _ _ concluded => concluded
      intro more₁ _ recipient
      refine passes_bind assertNoRole_passes ?_ fun _ _ concluded => concluded
      intro more₂ _ role
      refine passes_bind assertSameOrigin_passes ?_ fun _ _ concluded => concluded
      intro more₃ _ origin
      refine passes_bind trustedSymbol_passes ?_ fun _ _ concluded => concluded
      intro more₄ currency symbol
      refine passes_bind intentOptions_passes ?_ fun _ _ concluded => concluded
      intro more₅ fields own
      refine charge_meets ⟨normalized, ⟨first, rfl, required, v2Header, v2, parsed, carrier, configured, read, rfl, rfl,
        selected, role⟩, ?_, ?_, origin, ?_, ?_⟩
      · exact ((((chain.more _).more _).more _).more _).more _
      · exact (((recipient.more _).more _).more _).more _
      · exact termsToIntent_bound own symbol fun _ rules => rules
      · exact termsToIntent_intends own

end Paths
end Charge

theorem x402Fetch_meets {web : WebPlatform} {opts : X402FetchOptions} {input : RequestInput}
    {init : Option RequestInit} : (x402Fetch web opts input init).Meets (Purchase.monitor web opts input init)
      Purchase.Concluded .start := by
  unfold x402Fetch
  cases normalized : normalizeRequest input init with
  | error e => exact .inl rfl
  | ok request =>
    refine (meets_bind _ _ _).mpr ⟨.inl ⟨rfl, rfl, normalized⟩, ?_⟩
    rintro first p ⟨rfl, -⟩
    cases first with
    | error e => exact .inl rfl
    | ok first =>
      change Meets _ _ (ite _ _ _) (browsing first [])
      split_ifs with required
      · exact .inl ⟨rfl, required, rfl⟩
      · have demanded := not_not.mp required
        cases carrier : first.headers.get paymentRequiredHeader with
        | none => exact payV1_meets normalized demanded carrier
        | some v2Header => exact payV2_meets normalized demanded carrier

/-- Whatever is fetched and whatever the server, the payer, the guard's outside and the clock answer, in whatever
order: a fetch that pays keeps to the course, and its result says what had been signed and sent. -/
theorem purchases_are_warranted (web : WebPlatform) (opts : X402FetchOptions) (input : RequestInput)
    (init : Option RequestInit) : (x402Fetch web opts input init).Meets (Purchase.monitor web opts input init)
      Purchase.Concluded .start := x402Fetch_meets

end Vaduno.X402
