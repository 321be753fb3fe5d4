import Vaduno.Policy.Limits
import Vaduno.Policy.Merchants
import Vaduno.Policy.Networks
import Vaduno.X402.Purchase

/-! What a policy says of a fetch that pays, in the units and names of the demand: the amount that is signed for is the
one in the server's text, within the limit; the recipient, the chain and the token are ones that the policy and the
registry name. -/
namespace Vaduno.X402
open Ecma Enforce Guard Async Policy

section Policed
variable (web : WebPlatform) (opts : X402FetchOptions)

/-- The policies that the gates have read are the one that decides. -/
def Steady (looked : List SpendPolicy) (policy : SpendPolicy) : Prop := ∀ seen ∈ looked, seen = policy

/-- The demand of an order is within a policy. -/
structure Polices (looked : List SpendPolicy) (policy : SpendPolicy) (order : Order) : Prop where
  amount : isDigits order.demand.terms.amount = true ∧ 0 < digitsValue order.demand.terms.amount ∧
    digitsValue order.demand.terms.amount < 2 ^ 53 ∧
    order.intent.payment.amount.amountMinor = ((digitsValue order.demand.terms.amount : ℕ) : ℤ)
  limit : ∀ limit : ℕ, limit < 2 ^ 53 → policy.limits.perTransactionMinor = .number ((limit : ℕ) : ℤ) →
    digitsValue order.demand.terms.amount ≤ limit
  currency : web.toUpperCase order.intent.payment.amount.currency = web.toUpperCase policy.currency
  token : ∀ assets, opts.assets = some assets → ∃ a ∈ assets, Trusts web a order.demand ∧
    web.toUpperCase (web.toUpperCase a.symbol) = web.toUpperCase policy.currency
  network : ∀ allow, policy.networks.allow = some allow → ∃ network,
    normNetwork web.toPlatform (.string order.demand.terms.network) = some network ∧
      ∃ entry ∈ allow, normNetwork web.toPlatform entry = some network
  unblocked : ∀ pattern ∈ policy.merchants.block.getD [], ¬merchantMatches web.toPlatform
    ⟨order.demand.terms.payTo, some order.request.url⟩ pattern = true
  merchant : ∀ allow, policy.merchants.allow = some allow → ∃ pattern ∈ allow, merchantMatches web.toPlatform
    ⟨order.demand.terms.payTo, some order.request.url⟩ pattern = true
  /-- With the gate on, nothing but the recipient's own id admits it. -/
  recipient : Steady looked policy → opts.allowHostOnlyMerchantPolicy = false → ∀ allow,
    policy.merchants.allow = some allow → ∃ pattern ∈ allow,
      web.toLowerCase (web.trim order.demand.terms.payTo) = entryId web.toPlatform pattern
  /-- With the gate on, a registry or the policy names the chain. -/
  chain : Steady looked policy → opts.allowChainBlind = false → opts.assets.isSome = true ∨
    policy.networks.allow.isSome = true

/-- The demand of the order that is under way is within the policy that was read first in the critical section. -/
def Purchase.Policed (p : Purchase) : Prop := ∃ order policy, p.order = some order ∧ p.launch.policy = some policy ∧
  Polices web opts p.looked policy order

/-- The payer signs for what is within the policy only. -/
def Purchase.policing : Monitor X402Op.Answer Purchase where
  allowed p
    | .pay demand => p.Policed web opts ∧ ∃ order, p.order = some order ∧ demand = order.demand
    | _ => True
  step p op ans p' := p' = p.advance web op ans ∧ AnsweredOwn op ans

end Policed

section Proofs
variable {web : WebPlatform} {opts : X402FetchOptions} {input : RequestInput} {init : Option RequestInit}
  {p : Purchase} {order : Order} {policy : SpendPolicy}

/-! ### The rules of a policy that does not deny -/

section Ruled
variable {platform : Platform} {intent : PaymentIntent}

/-- The rules that need no history, each with nothing to say. -/
structure Ruled (platform : Platform) (intent : PaymentIntent) (policy : SpendPolicy) : Prop where
  currency : platform.toUpperCase intent.amount.currency = platform.toUpperCase policy.currency
  network : networkReasons platform intent policy = .ok []
  merchant : merchantReasons platform intent policy = []
  limit : platform.exceeds intent.amount.amountMinor policy.limits.perTransactionMinor = .ok false

theorem reasonIf_nil {violated : Bool} {code message : JsString} (nothing : reasonIf violated code message = []) :
    violated = false := by
  unfold reasonIf at nothing
  split_ifs at nothing with unviolated
  exact Bool.not_eq_true _ ▸ unviolated

theorem ruled_of_admits {result : PolicyResult} (admits : Admits platform intent policy result) :
    Ruled platform intent policy := by
  obtain ⟨nowMs, ruled⟩ := admits.ruled
  obtain ⟨networks, amounts, named, capped, whole⟩ := staticReasons_ok ruled
  simp only [List.nil_eq, List.append_eq_nil_iff] at whole
  obtain ⟨⟨⟨⟨⟨⟨⟨-, -⟩, currency⟩, -⟩, rfl⟩, merchant⟩, -⟩, rfl⟩ := whole
  refine ⟨?_, named, merchant, (perTransactionReasons_nil_iff admits.counts).mp capped⟩
  simpa [currencyReasons] using reasonIf_nil currency

theorem Ruled.unblocked (ruled : Ruled platform intent policy) :
    ∀ pattern ∈ policy.merchants.block.getD [], ¬merchantMatches platform intent.merchant pattern = true := by
  have nothing := ruled.merchant
  simp only [merchantReasons, List.append_eq_nil_iff] at nothing
  have unmatched := reasonIf_nil nothing.1.2
  simpa using unmatched

theorem Ruled.allowed (ruled : Ruled platform intent policy) {allow : List JsString}
    (listed : policy.merchants.allow = some allow) :
    ∃ pattern ∈ allow, merchantMatches platform intent.merchant pattern = true := by
  have nothing := ruled.merchant
  simp only [merchantReasons, List.append_eq_nil_iff, listed] at nothing
  have matched := reasonIf_nil nothing.2
  simpa using matched

theorem Ruled.named (ruled : Ruled platform intent policy) {allow : List JsValue}
    (listed : policy.networks.allow = some allow) : ∃ network, normNetwork platform (stated intent) = some network ∧
      ∃ entry ∈ allow, normNetwork platform entry = some network := by
  by_contra unnamed
  have constrained : Constrained policy := .inl (by rw [listed]; rfl)
  obtain ⟨reason, member, -⟩ := network_refused constrained ruled.network fun network normal =>
    .inr ⟨allow, listed, fun entry member same => unnamed ⟨network, normal, entry, member, same⟩⟩
  cases member

end Ruled

/-! ### An order that passed the gates, under a policy that does not deny it -/

theorem policy_gated {looked : List SpendPolicy} (steady : Steady looked policy) {gate : SpendPolicy → Prop}
    (gated : ∃ seen ∈ looked, gate seen) : gate policy := by
  obtain ⟨seen, member, passed⟩ := gated
  exact steady seen member ▸ passed

theorem polices_of_offered {result : PolicyResult} (reads : ReadsDigits web.toPlatform)
    (offered : Offered web opts input init p order)
    (admits : Admits web.toPlatform order.intent.payment policy result) : Polices web opts p.looked policy order := by
  have ruled := ruled_of_admits admits
  have intends := offered.intent
  have safe : (parseAtomicAmount web.toPlatform order.demand.terms.amount).isSafeInteger = true := by
    have valid := admits.counts
    rw [amountValid, intends.amount, Bool.and_eq_true] at valid
    exact valid.1
  obtain ⟨digits, positive, small, exactly⟩ := parseAtomicAmount_exact reads safe
  have amount := intends.amount.trans exactly
  have merchant := intends.merchant
  refine ⟨⟨digits, positive, small, amount⟩, ?_, ruled.currency, ?_, ?_, ?_, ?_, ?_, ?_⟩
  · intro limit bounded limited
    have within := ruled.limit
    rw [amount, limited, Platform.exceeds_number, Except.ok.injEq, decide_eq_false_iff_not,
      Number.natCast_lt bounded small] at within
    exact not_lt.mp within
  · intro assets listed
    obtain ⟨a, member, trusted, symbol⟩ := offered.token assets listed
    refine ⟨a, member, trusted, ?_⟩
    rw [← symbol]
    exact ruled.currency
  · intro allow listed
    have named := ruled.named listed
    rwa [stated, intends.network] at named
  · rw [← merchant]
    exact ruled.unblocked
  · intro allow listed
    rw [← merchant]
    exact ruled.allowed listed
  · intro steady gate allow listed
    obtain ⟨pattern, member, admitted⟩ := ruled.allowed listed
    refine ⟨pattern, member, ?_⟩
    have byId : ∀ pattern ∈ policy.merchants.allow.getD [], isHostForm web.toPlatform pattern = false := by
      rcases offered.recipient with optedOut | gated
      · rw [gate] at optedOut
        cases optedOut
      · exact policy_gated steady gated
    rw [listed, Option.getD_some] at byId
    rw [matches_by_id (byId pattern member), merchant] at admitted
    exact admitted
  · intro steady gate
    rcases offered.chain with blind | registered | gated
    · rw [gate] at blind
      cases blind
    · exact .inl registered
    · exact .inr (policy_gated steady gated)

/-! ### What stays as it is while the guard's call is under way -/

theorem launch_policy_kept {l : Launch} {op : Op} {ans : op.Answer} (known : l.policy = some policy) :
    (l.advance op ans).policy = some policy := by
  unfold Launch.advance Launch.settling Launch.asking
  split_ifs
  · split
    · exact known
    · exact known
    · rw [known]; rfl
    all_goals exact known
  · split <;> exact known

theorem offered_kept {p' : Purchase} (offered : Offered web opts input init p order) (probe : p'.probe = p.probe)
    (looked : p'.looked = p.looked) : Offered web opts input init p' order where
  request := offered.request
  demanded := by rw [probe]; exact offered.demanded
  chain := by rw [looked]; exact offered.chain
  recipient := by rw [looked]; exact offered.recipient
  origin := offered.origin
  token := offered.token
  intent := offered.intent

/-- With an order under way, everything that its gates rest on stays. -/
structure Kept (p p' : Purchase) : Prop where
  order : p'.order = p.order
  probe : p'.probe = p.probe
  looked : p'.looked = p.looked
  policy : ∀ policy, p.launch.policy = some policy → p'.launch.policy = some policy

theorem kept_guarded {op : Op} {ans : op.Answer} : Kept p (p.guarded web order op ans) :=
  ⟨rfl, rfl, rfl, fun _ => launch_policy_kept⟩

/-- Whatever the executor's end has to say of it. -/
theorem kept_railed {p' : Purchase} {outcome : Throwing JsValue} {signed : Option (Throwing JsString)}
    {answered : Option (Throwing Response)}
    (same : p' = { p.railed web order outcome with signed := signed, answered := answered }) : Kept p p' := by
  subst same
  exact ⟨rfl, rfl, rfl, fun _ => launch_policy_kept⟩

theorem kept_advance {op : X402Op} {ans : op.Answer} (current : p.order = some order)
    (allowed : p.mayAsk web opts input init op) : Kept p (p.advance web op ans) := by
  cases op with
  | guard op =>
    rw [advance_guarded current]
    exact kept_guarded
  | fetch url sent =>
    rw [advance_fetch current]
    exact kept_railed rfl
  | pay demand =>
    cases unsendable : Purchase.unsendable web ans with
    | none =>
      rw [advance_pay_sendable unsendable]
      exact ⟨rfl, rfl, rfl, fun _ => id⟩
    | some e =>
      rw [advance_pay_unsendable current unsendable]
      exact kept_railed rfl
  | execute order' =>
    rw [allowed.1] at current
    cases current
  | randomUUID | requestedAt | onSettled => exact ⟨rfl, rfl, rfl, fun _ => id⟩

/-- Before there is an order, nothing but the call of the guard makes one. -/
theorem order_advance {op : X402Op} {ans : op.Answer} (none : p.order = none)
    (other : ∀ order, op ≠ .execute order) : (p.advance web op ans).order = .none := by
  cases op with
  | guard op =>
    unfold Purchase.advance
    dsimp only
    rw [none]
    cases op <;> first | exact none | rfl
  | fetch url sent =>
    unfold Purchase.advance
    dsimp only
    rw [none]
  | pay demand =>
    unfold Purchase.advance
    dsimp only
    rw [none]
  | execute order => exact absurd rfl (other order)
  | randomUUID | requestedAt | onSettled => exact none

/-- What is known of an order that is under way, and of one that was signed for. -/
structure Policing (web : WebPlatform) (opts : X402FetchOptions) (input : RequestInput) (init : Option RequestInit)
    (p : Purchase) : Prop where
  offered : ∀ order, p.order = some order → Offered web opts input init p order
  signed : p.signed ≠ none → p.Policed web opts

theorem Kept.offered {p' : Purchase} (kept : Kept p p') (offered : Offered web opts input init p order) :
    Offered web opts input init p' order := offered_kept offered kept.probe kept.looked

theorem Kept.policed {p' : Purchase} (kept : Kept p p') (policed : p.Policed web opts) : p'.Policed web opts := by
  obtain ⟨order, policy, current, known, polices⟩ := policed
  exact ⟨order, policy, kept.order.trans current, kept.policy policy known, kept.looked ▸ polices⟩

/-- The guard has cleared what is about to be signed. -/
theorem Policing.cleared (reads : ReadsDigits web.toPlatform) (policing : Policing web opts input init p)
    (warranted : p.Warranted web opts order) : p.Policed web opts := by
  obtain ⟨policy, result, known, admits, -⟩ := warranted.cleared.decided
  exact ⟨order, policy, warranted.current, known,
    polices_of_offered reads (policing.offered order warranted.current) admits⟩

/-- Only the payer signs. -/
theorem signed_advance {op : X402Op} {ans : op.Answer} (other : ∀ demand, op ≠ .pay demand) :
    (p.advance web op ans).signed = p.signed := by
  rcases p with ⟨probe, looked, current, phase, launch, signed, answered, notified⟩
  cases op with
  | guard op =>
    cases current with
    | none => cases op <;> rfl
    | some order => rfl
  | fetch url sent => cases current <;> rfl
  | pay demand => exact absurd rfl (other demand)
  | execute | randomUUID | requestedAt | onSettled => rfl

theorem Policing.advance {op : X402Op} {ans : op.Answer} (reads : ReadsDigits web.toPlatform)
    (policing : Policing web opts input init p) (allowed : p.mayAsk web opts input init op) :
    Policing web opts input init (p.advance web op ans) := by
  cases current : p.order with
  | some order =>
    have kept := @kept_advance web opts input init p order op ans current allowed
    refine ⟨fun order' same => kept.offered (policing.offered order' (kept.order ▸ same)), fun signed => ?_⟩
    by_cases signing : ∃ demand, op = .pay demand
    · obtain ⟨demand, rfl⟩ := signing
      obtain ⟨-, order', warranted, -⟩ := allowed
      exact kept.policed (policing.cleared reads warranted)
    · rw [signed_advance (not_exists.mp signing)] at signed
      exact kept.policed (policing.signed signed)
  | none =>
    have unsigned : (p.advance web op ans).signed = none := by
      rw [signed_advance]
      · by_contra signed
        obtain ⟨order, policy, known, -⟩ := policing.signed signed
        rw [current] at known
        cases known
      · rintro demand rfl
        obtain ⟨-, order, warranted, -⟩ := allowed
        rw [warranted.current] at current
        cases current
    refine ⟨fun order same => ?_, fun signed => absurd unsigned signed⟩
    by_cases called : ∃ order, op = .execute order
    · obtain ⟨order', rfl⟩ := called
      obtain rfl := Option.some.inj same
      exact offered_kept allowed.2 rfl rfl
    · rw [order_advance current (not_exists.mp called)] at same
      cases same

end Proofs

namespace Policed.Sample

def url : JsString := "https://api.example/r"

/-- A platform that knows one address, and reads digits as they are. -/
def web : WebPlatform where
  toPlatform := { Vaduno.Sample.platform with
    hostname := fun text => if text = url then some "api.example" else none
    stringToNumber := fun text => if isDigits text then ((digitsValue text : ℕ) : ℤ) else .nan }
  origin text := if text = url then some "https://api.example" else none
  headerValue := some
  decodeBase64 _ := []
  stack := 100

def policy : SpendPolicy :=
  { Vaduno.Sample.policy with
    currency := "USDC"
    limits := { Vaduno.Sample.policy.limits with perTransactionMinor := .number 1000 }
    merchants := ⟨some ["id:0xabc"], none⟩
    networks := ⟨some [.string "base"], none⟩ }

def opts : X402FetchOptions where
  guard := Launch.Sample.paying
  agentId := "agent-1"
  select := none
  assets := some [⟨"base", "0xusd", "USDC", 6⟩]
  requireResourceOriginMatch := none
  category := none
  mandateIdFor := none
  notifies := false
  v2 := none
  allowChainBlind := false
  allowHostOnlyMerchantPolicy := false

def demanded : JsString :=
  encode "\x7b\"x402Version\":1,\"accepts\":[\x7b\"scheme\":\"exact\",\"network\":\"base\"," ++
    "\"maxAmountRequired\":\"500\",\"resource\":\"https://api.example/r\",\"payTo\":\"0xabc\"," ++
    "\"asset\":\"0xusd\"\x7d]\x7d"

def answer (p : Purchase) : (op : X402Op) → op.Answer
  | .guard .policy => policy
  | .guard op => Launch.Sample.answer op
  | .fetch .. =>
    if p.probe.isNone then .ok ⟨402, [], some (.chunk (demanded.map UInt16.toUInt8) .ended)⟩ else .ok ⟨200, [], none⟩
  | .randomUUID => "u-1"
  | .requestedAt => .ok "2026-05-28T20:26:40.000Z"
  | .execute _ => ()
  | .pay _ => .ok "c2lnbmVk"
  | .onSettled .. => .ok ()

def played : Except X402Error Response × Purchase :=
  (x402Fetch web opts (.text url) none).follow (fun p op => (answer p op, p.advance web op (answer p op))) .start

theorem signed : played.2.signed.isSome = true := by decide +kernel

end Policed.Sample
end Vaduno.X402
