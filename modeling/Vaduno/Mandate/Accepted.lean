import Vaduno.Mandate.Limits
import Vaduno.Mandate.Signed

/-! What an accepted mandate has been verified for, and which of its constraints an accepted intent keeps. -/
namespace Vaduno.Mandate
open Ecma Policy Ledger Transparency

/-! ### Signatures -/

namespace MandateVerifier
variable {crypto : MandateCrypto} (verifier : MandateVerifier crypto) (mandate : MandateObject)

/-- The key id that a mandate names for an algorithm. -/
def namedKid (alg : JsString) : JsValue :=
  if isMandateV2 mandate then member alg (mandate.get "kids")
  else if alg = mandateAlg then mandate.get "kid" else .undefined

def signatureOf (alg : JsString) : JsValue :=
  if isMandateV2 mandate then member alg (mandate.get "signatures")
  else if alg = mandateAlg then mandate.get "signature" else .undefined

/-- The canonical payload of the mandate's own format: all of it but its signatures. -/
def ownPayload : Throwing Bytes :=
  if isMandateV2 mandate then mandateV2Payload (mandate.without "signatures")
  else mandatePayload (mandate.without "signature")

/-- The Ed25519 signature verifies over the mandate's own payload, under the trusted key it names. -/
def EdVerified : Prop :=
  ∃ payload kid key signature, ownPayload mandate = .ok payload ∧ namedKid mandate mandateAlg = .string kid ∧
    (kid, key) ∈ verifier.verifyKeys ∧ kid = keyIdOf crypto key.spki ∧
    crypto.bufferFrom (signatureOf mandate mandateAlg) = .ok signature ∧ crypto.edVerify payload key signature = true

/-- So does the ML-DSA-44 signature, on a runtime that has it. -/
def MlDsaVerified : Prop :=
  ∃ ops payload kid pem signature, verifier.pq = some ops ∧ ownPayload mandate = .ok payload ∧
    namedKid mandate mldsa44Alg = .string kid ∧ (kid, pem) ∈ verifier.mlDsa44VerifyKeys ∧
    mlDsa44KeyId crypto pem = .ok kid ∧ crypto.bufferFrom (signatureOf mandate mldsa44Alg) = .ok signature ∧
    ops.verify payload pem signature = .ok true

def Verified (alg : JsString) : Prop :=
  (alg = mandateAlg ∧ verifier.EdVerified mandate) ∨ (alg = mldsa44Alg ∧ verifier.MlDsaVerified mandate)

/-- What accepting a mandate implies of its signatures. -/
structure Signed : Prop where
  ed : verifier.EdVerified mandate
  required : ∀ alg ∈ verifier.requireAlgs, verifier.Verified mandate alg
  verifiable : verifier.pq.isSome → (keyNamed verifier.mlDsa44VerifyKeys (namedKid mandate mldsa44Alg)).isSome →
    verifier.MlDsaVerified mandate

variable {verifier mandate}

theorem keyNamed_some {keys : List (JsString × κ)} {v : JsValue} {key : κ} (held : keyNamed keys v = some key) :
    ∃ kid, v = .string kid ∧ (kid, key) ∈ keys := by
  cases v with
  | string kid =>
    obtain ⟨front, back, rfl, -⟩ := List.lookup_eq_some_iff.mp held
    exact ⟨kid, rfl, by simp⟩
  | _ => cases held

theorem edValid_payload {key : KeyObject} {payload : Throwing Bytes} {signature : JsValue}
    (valid : edValid crypto key payload signature = true) : ∃ bytes decoded, payload = .ok bytes ∧
      crypto.bufferFrom signature = .ok decoded ∧ crypto.edVerify bytes key decoded = true := by
  unfold edValid at valid
  split at valid
  · rename_i bytes decoded read
    exact ⟨bytes, decoded, rfl, read, valid⟩
  · cases valid

theorem signed_of_v1 (first : isMandateV2 mandate = false) (ran : verifier.v1Problem mandate = .ok none) :
    verifier.Signed mandate := by
  unfold v1Problem at ran
  split_ifs at ran with version alg
  · obtain ⟨_, -, ran⟩ := bind_ok ran
    cases ran
  · obtain ⟨_, -, ran⟩ := bind_ok ran
    cases ran
  · dsimp only at ran
    split_ifs at ran with missing
    · cases ran
    split at ran
    · obtain ⟨_, -, ran⟩ := bind_ok ran
      cases ran
    · rename_i key held
      split_ifs at ran with valid
      · obtain ⟨kid, named, listed⟩ := keyNamed_some held
        obtain ⟨payload, signature, serialized, decoded, verified⟩ := edValid_payload valid
        have ed : verifier.EdVerified mandate := by
          refine ⟨payload, kid, key, signature, ?_, ?_, listed, verifier.ids _ listed, ?_, verified⟩
          · simpa [ownPayload, first] using serialized
          · simpa [namedKid, first] using named
          · simpa [signatureOf, first] using decoded
        refine ⟨ed, fun alg required => .inl ⟨?_, ed⟩, fun _ held => ?_⟩
        · by_contra other
          have among : alg ∈ verifier.requireAlgs.filter (· ≠ mandateAlg) :=
            List.mem_filter.mpr ⟨required, decide_eq_true other⟩
          rw [not_not.mp missing] at among
          cases among
        · have other : mldsa44Alg ≠ mandateAlg := by decide
          simp [namedKid, first, other, keyNamed] at held
      · cases ran

theorem pq_of_none {kids signatures : JsValue} {payload : Bytes}
    (ran : verifier.pqProblem kids signatures payload = .ok none) :
    (∃ ops kid pem signature, verifier.pq = some ops ∧ member mldsa44Alg kids = .string kid ∧
      (kid, pem) ∈ verifier.mlDsa44VerifyKeys ∧ crypto.bufferFrom (member mldsa44Alg signatures) = .ok signature ∧
      ops.verify payload pem signature = .ok true) ∨
    mldsa44Alg ∉ verifier.requireAlgs ∧
      (verifier.pq = none ∨ keyNamed verifier.mlDsa44VerifyKeys (member mldsa44Alg kids) = none) := by
  unfold pqProblem at ran
  dsimp only at ran
  split at ran
  · rename_i absent
    split_ifs at ran with required
    · cases ran
    · exact .inr ⟨fun listed => required (List.contains_iff_mem.mpr listed), .inl absent⟩
  · rename_i ops present
    split at ran
    · rename_i unheld
      split_ifs at ran with required
      · obtain ⟨_, -, ran⟩ := bind_ok ran
        cases ran
      · exact .inr ⟨fun listed => required (List.contains_iff_mem.mpr listed), .inr unheld⟩
    · rename_i pem held
      obtain ⟨kid, named, listed⟩ := keyNamed_some held
      obtain ⟨signature, decoded, ran⟩ := bind_ok ran
      obtain ⟨valid, verified, ran⟩ := bind_ok ran
      cases valid with
      | false => cases ran
      | true => exact .inl ⟨ops, kid, pem, signature, present, named, listed, decoded, verified⟩

theorem signed_of_v2 (second : isMandateV2 mandate = true) (ran : verifier.v2Problem mandate = .ok none) :
    verifier.Signed mandate := by
  obtain ⟨structured, -, ran⟩ := bind_ok ran
  cases structured with
  | some message => cases ran
  | none =>
    dsimp only at ran
    split at ran
    · obtain ⟨_, -, ran⟩ := bind_ok ran
      cases ran
    · rename_i key held
      split_ifs at ran with valid
      · obtain ⟨kid, named, listed⟩ := keyNamed_some held
        obtain ⟨payload, signature, serialized, decoded, verified⟩ := edValid_payload valid
        have own : ownPayload mandate = .ok payload := by simpa [ownPayload, second] using serialized
        have ed : verifier.EdVerified mandate := by
          refine ⟨payload, kid, key, signature, own, ?_, listed, verifier.ids _ listed, ?_, verified⟩
          · simpa [namedKid, second] using named
          · simpa [signatureOf, second] using decoded
        have pq : namedKid mandate mldsa44Alg = member mldsa44Alg (mandate.get "kids") := if_pos second
        rw [serialized] at ran
        rcases pq_of_none ran with ⟨ops, kid, pem, signature, present, named, listed, decoded, verified⟩ | passed
        · have mlDsa : verifier.MlDsaVerified mandate := by
            refine ⟨ops, payload, kid, pem, signature, present, own, pq.trans named, listed,
              verifier.mlDsa44Ids _ listed, ?_, verified⟩
            simpa [signatureOf, second] using decoded
          refine ⟨ed, fun alg required => ?_, fun _ _ => mlDsa⟩
          have known := verifier.implemented alg required
          simp only [mandateV2Algs, List.mem_cons, List.not_mem_nil, or_false] at known
          exact known.imp (⟨·, ed⟩) (⟨·, mlDsa⟩)
        · obtain ⟨optional, unverifiable⟩ := passed
          refine ⟨ed, fun alg required => ?_, fun present held => ?_⟩
          · have known := verifier.implemented alg required
            simp only [mandateV2Algs, List.mem_cons, List.not_mem_nil, or_false] at known
            rcases known with rfl | rfl
            · exact .inl ⟨rfl, ed⟩
            · exact absurd required optional
          · rw [pq] at held
            rcases unverifiable with absent | unheld
            · rw [absent] at present
              cases present
            · rw [unheld] at held
              cases held
      · cases ran

theorem signed_of_signatureProblem (ran : verifier.signatureProblem mandate = .ok none) : verifier.Signed mandate := by
  unfold signatureProblem at ran
  split_ifs at ran with second
  · exact signed_of_v2 second ran
  · exact signed_of_v1 (Bool.not_eq_true _ ▸ second) ran

end MandateVerifier

/-! ### Constraints -/

section Constraints
variable (platform : Platform) (mandate : MandateObject) (intent : PaymentIntent) (now : Throwing Number)

/-- What an intent must be for the constraints of a mandate to cover it. -/
structure Covered : Prop where
  agent : mandate.get "agentId" = .string intent.agentId
  currency : ∃ currency, member "currency" (mandate.get "constraints") = .string currency ∧
    platform.toUpperCase currency = platform.toUpperCase intent.amount.currency
  amount : ∃ max, (member "maxAmountMinor" (mandate.get "constraints")).toNumber platform.stringToNumber = .ok max ∧
    intent.amount.amountMinor ≤ max
  /-- No merchant is listed, or one that matches. -/
  merchant : (member "merchants" (mandate.get "constraints")).truthy = false ∨
    ∃ items, member "merchants" (mandate.get "constraints") = .array items ∧
      (items = [] ∨ ∃ pattern, .string pattern ∈ items ∧ merchantMatches platform intent.merchant pattern = true)
  /-- No category is listed, or the intent's. -/
  category : (member "categories" (mandate.get "constraints")).truthy = false ∨
    ∃ items, member "categories" (mandate.get "constraints") = .array items ∧
      (items = [] ∨ ∃ cat own, intent.category = some cat ∧ .string own ∈ items ∧
        platform.toLowerCase own = platform.toLowerCase cat)
  /-- No context is bound, or the intent's, whose agent and merchant are the intent's where it names them. -/
  context : (member "contextHash" (mandate.get "constraints")).truthy = false ∨
    ∃ bound props, member "contextHash" (mandate.get "constraints") = .string bound ∧
      intent.context = some (.object props) ∧ mandateContextHash platform (.object props) = .ok bound ∧
      (∀ agentId, props.lookup (encode "agentId") = some (.string agentId) → agentId = intent.agentId) ∧
      ∀ merchantId, props.lookup (encode "merchantId") = some (.string merchantId) → merchantId = intent.merchant.id
  clock : ∃ nowMs fromText expText, now = .ok nowMs ∧
    (member "validFrom" (mandate.get "constraints")).toText = .ok fromText ∧
    (member "expiresAt" (mandate.get "constraints")).toText = .ok expText ∧
    platform.dateParse fromText ≤ nowMs ∧ nowMs < platform.dateParse expText

/-- Nothing that the constraints are compared with is not a number, and what lists merchants or categories is a
list where it is anything. -/
structure Comparable : Prop where
  amount : intent.amount.amountMinor.isNaN = false
  limit : ∃ max, (member "maxAmountMinor" (mandate.get "constraints")).toNumber platform.stringToNumber = .ok max ∧
    max.isNaN = false
  clock : ∃ nowMs, now = .ok nowMs ∧ nowMs.isNaN = false
  merchants : (member "merchants" (mandate.get "constraints")).truthy = true →
    ∃ items, member "merchants" (mandate.get "constraints") = .array items
  categories : (member "categories" (mandate.get "constraints")).truthy = true →
    ∃ items, member "categories" (mandate.get "constraints") = .array items

end Constraints

section Passed
variable {platform : Platform} {mandate : MandateObject} {intent : PaymentIntent} {now : Throwing Number}
  {uses : Number} {revoked : Bool} {check : MandateCheck}

/-- What the checks after the signatures have come to before they accept. -/
structure Passed (platform : Platform) (mandate : MandateObject) (intent : PaymentIntent) (now : Throwing Number) :
    Prop where
  clock : ∃ nowMs validFrom expiresAt fromMs expMs, now = .ok nowMs ∧
    property "validFrom" (mandate.get "constraints") = .ok validFrom ∧ parseMs platform validFrom = .ok fromMs ∧
    property "expiresAt" (mandate.get "constraints") = .ok expiresAt ∧ parseMs platform expiresAt = .ok expMs ∧
    fromMs.isNaN = false ∧ expMs.isNaN = false ∧ ¬nowMs < fromMs ∧ ¬expMs ≤ nowMs
  agent : isString intent.agentId (mandate.get "agentId") = true
  currency : upperCase platform (member "currency" (mandate.get "constraints")) =
    .ok (platform.toUpperCase intent.amount.currency)
  amount : platform.exceeds intent.amount.amountMinor (member "maxAmountMinor" (mandate.get "constraints")) = .ok false
  merchant : coversMerchant platform intent (member "merchants" (mandate.get "constraints")) = .ok true
  category : coversCategory platform intent (member "categories" (mandate.get "constraints")) = .ok true
  context : (member "contextHash" (mandate.get "constraints")).truthy = true →
    (checkBoundContext platform intent (member "contextHash" (mandate.get "constraints"))).ok = true

theorem passed_of_shared (ran : checkStateShared platform intent revoked uses mandate now = .ok check)
    (accepted : check.ok = true) : Passed platform mandate intent now := by
  unfold checkStateShared at ran
  have ran := (passed ran accepted refuses_plainly).2
  obtain ⟨nowMs, clock, ran⟩ := bind_ok ran
  obtain ⟨validFrom, starts, ran⟩ := bind_ok ran
  obtain ⟨fromMs, start, ran⟩ := bind_ok ran
  obtain ⟨expiresAt, ends, ran⟩ := bind_ok ran
  obtain ⟨expMs, stop, ran⟩ := bind_ok ran
  obtain ⟨parsed, ran⟩ := passed ran accepted refuses_plainly
  obtain ⟨begun, ran⟩ := passed ran accepted refuses_telling
  obtain ⟨lasting, ran⟩ := passed ran accepted refuses_telling
  obtain ⟨exhausted, -, ran⟩ := bind_ok ran
  obtain ⟨-, ran⟩ := passed ran accepted refuses_telling
  obtain ⟨agent, ran⟩ := passed ran accepted refuses_telling
  obtain ⟨currency, upper, ran⟩ := bind_ok ran
  obtain ⟨same, ran⟩ := passed ran accepted refuses_telling
  obtain ⟨exceeded, compared, ran⟩ := bind_ok ran
  obtain ⟨within, ran⟩ := passed ran accepted refuses_telling
  obtain ⟨merchant, matched, ran⟩ := bind_ok ran
  obtain ⟨covered, ran⟩ := passed ran accepted refuses_plainly
  obtain ⟨category, listed, ran⟩ := bind_ok ran
  obtain ⟨covered', ran⟩ := passed ran accepted refuses_plainly
  rw [Bool.not_eq_true, Bool.or_eq_false_iff] at parsed
  rw [Bool.not_eq_true, Bool.not_eq_false'] at agent covered covered'
  rw [Bool.not_eq_true] at within
  refine ⟨⟨nowMs, validFrom, expiresAt, fromMs, expMs, clock, starts, start, ends, stop, parsed.1, parsed.2, begun,
    lasting⟩, agent, ?_, ?_, ?_, ?_, fun bound => ?_⟩
  · rw [upper, not_not.mp same]
  · rw [compared, within]
  · rw [matched, covered]
  · rw [listed, covered']
  · rw [if_pos bound] at ran
    cases ran
    exact accepted

theorem someMatches_true {items : List JsValue} (ran : someMatches platform intent items = .ok true) :
    ∃ pattern, .string pattern ∈ items ∧ merchantMatches platform intent.merchant pattern = true := by
  induction items with
  | nil => cases ran
  | cons item rest ih =>
    cases item with
    | string pattern =>
      rw [someMatches] at ran
      split_ifs at ran with found
      · exact ⟨pattern, by simp, found⟩
      · obtain ⟨pattern, listed, found⟩ := ih ran
        exact ⟨pattern, by simp [listed], found⟩
    | _ => cases ran

theorem covers_of_coversMerchant {merchants : JsValue} {items : List JsValue} (list : merchants = .array items)
    (ran : coversMerchant platform intent merchants = .ok true) :
    items = [] ∨ ∃ pattern, .string pattern ∈ items ∧ merchantMatches platform intent.merchant pattern = true := by
  subst list
  cases items with
  | nil => exact .inl rfl
  | cons item rest => exact .inr (someMatches_true ran)

theorem covers_of_coversCategory {categories : JsValue} {items : List JsValue} (list : categories = .array items)
    (ran : coversCategory platform intent categories = .ok true) :
    items = [] ∨ ∃ cat own, intent.category = some cat ∧ .string own ∈ items ∧
      platform.toLowerCase own = platform.toLowerCase cat := by
  subst list
  cases items with
  | nil => exact .inl rfl
  | cons item rest =>
    right
    unfold coversCategory at ran
    dsimp only at ran
    split_ifs at ran with absent
    · cases ran
    obtain ⟨lowered, mapped, ran⟩ := bind_ok ran
    have among : (intent.category.map platform.toLowerCase).getD [] ∈ lowered :=
      List.contains_iff_mem.mp (Except.ok.inj ran)
    obtain ⟨own, listed, lower⟩ := of_mem_mapM mapped among
    cases named : intent.category with
    | none =>
      rw [named] at absent
      exact absurd rfl absent
    | some cat =>
      rw [named] at lower
      cases own with
      | string own => exact ⟨cat, own, rfl, listed, Except.ok.inj lower⟩
      | _ => cases lower

theorem merchant_of_check {merchantId : Option JsValue}
    (ok : (checkContext.checkMerchant intent merchantId).ok = true) :
    ∀ id, merchantId = some (.string id) → id = intent.merchant.id := by
  rintro id rfl
  rw [checkContext.checkMerchant] at ok
  split_ifs at ok with other
  · cases ok
  · exact not_not.mp other

/-- A context that passes is the one that is bound, and speaks of the intent's agent and merchant. -/
theorem context_of_check {bound : JsValue} (ok : (checkBoundContext platform intent bound).ok = true) :
    ∃ boundCtx props, bound = .string boundCtx ∧ intent.context = some (.object props) ∧
      mandateContextHash platform (.object props) = .ok boundCtx ∧
      (∀ agentId, props.lookup (encode "agentId") = some (.string agentId) → agentId = intent.agentId) ∧
      ∀ merchantId, props.lookup (encode "merchantId") = some (.string merchantId) →
        merchantId = intent.merchant.id := by
  unfold checkBoundContext at ok
  split at ok
  · rename_i boundCtx
    unfold checkContext at ok
    split at ok
    · rename_i props presented
      split at ok
      · cases ok
      · rename_i hash hashed
        split_ifs at ok with other
        · cases ok
        obtain rfl := not_not.mp other
        split at ok
        · rename_i agentId merchantId named
          split_ifs at ok with foreign
          · cases ok
          refine ⟨hash, props, rfl, presented, hashed, fun id own => ?_, merchant_of_check ok⟩
          rw [named] at own
          cases own
          exact not_not.mp foreign
        · rename_i unnamed
          exact ⟨hash, props, rfl, presented, hashed, fun id own => absurd own (unnamed id),
            merchant_of_check ok⟩
    · cases ok
    · cases ok
  · split at ok
    · split at ok <;> cases ok
    · cases ok
    · cases ok

theorem isString_eq {s : JsString} {v : JsValue} (same : isString s v = true) : v = .string s := by
  cases v with
  | string t => rw [of_decide_eq_true same]
  | _ => cases same

theorem property_ok {name : JsString} {v w : JsValue} (read : property name v = .ok w) : member name v = w := by
  cases v <;> first | exact Except.ok.inj read | cases read

theorem isNaN_of_le {a b : Number} (le : a ≤ b) : a.isNaN = false ∧ b.isNaN = false := by
  cases a <;> cases b <;> simp_all [Number.le_def, Number.le, Number.isNaN]

/-- An intent that passes is covered exactly where none of the comparisons was idle. -/
theorem covered_iff_comparable (passed : Passed platform mandate intent now) :
    Covered platform mandate intent now ↔ Comparable platform mandate intent now := by
  obtain ⟨nowMs, validFrom, expiresAt, fromMs, expMs, clock, starts, start, ends, stop, from_number, exp_number, begun,
    lasting⟩ := passed.clock
  obtain ⟨max, limit, exceeded⟩ := bind_ok passed.amount
  have within : ¬max < intent.amount.amountMinor := of_decide_eq_false (Except.ok.inj exceeded)
  constructor
  · intro covered
    obtain ⟨max', limit', le⟩ := covered.amount
    obtain ⟨nowMs', _, _, clock', -, -, begun', -⟩ := covered.clock
    refine ⟨(isNaN_of_le le).1, ⟨max', limit', (isNaN_of_le le).2⟩, ⟨nowMs', clock', (isNaN_of_le begun').2⟩,
      fun listed => ?_, fun listed => ?_⟩
    · rcases covered.merchant with unlisted | ⟨items, list, -⟩
      · rw [unlisted] at listed
        cases listed
      · exact ⟨items, list⟩
    · rcases covered.category with unlisted | ⟨items, list, -⟩
      · rw [unlisted] at listed
        cases listed
      · exact ⟨items, list⟩
  · intro comparable
    obtain ⟨max', limit', number⟩ := comparable.limit
    obtain rfl := Except.ok.inj (limit.symm.trans limit')
    obtain ⟨nowMs', clock', time⟩ := comparable.clock
    obtain rfl := Except.ok.inj (clock.symm.trans clock')
    obtain ⟨fromText, from_text, same⟩ := bind_ok start
    obtain rfl := Except.ok.inj same
    obtain ⟨expText, exp_text, same⟩ := bind_ok stop
    obtain rfl := Except.ok.inj same
    refine ⟨isString_eq passed.agent, ?_, ⟨max, limit, Number.le_of_not_lt number comparable.amount within⟩, ?_, ?_, ?_,
      nowMs, fromText, expText, clock, ?_, ?_, Number.le_of_not_lt time from_number begun,
      Number.lt_of_not_le time exp_number lasting⟩
    · have upper := passed.currency
      unfold upperCase at upper
      split at upper
      · rename_i currency text
        exact ⟨currency, text, Except.ok.inj upper⟩
      · cases upper
    · cases listed : (member "merchants" (mandate.get "constraints")).truthy with
      | false => exact .inl rfl
      | true =>
        obtain ⟨items, list⟩ := comparable.merchants listed
        exact .inr ⟨items, list, covers_of_coversMerchant list passed.merchant⟩
    · cases listed : (member "categories" (mandate.get "constraints")).truthy with
      | false => exact .inl rfl
      | true =>
        obtain ⟨items, list⟩ := comparable.categories listed
        exact .inr ⟨items, list, covers_of_coversCategory list passed.category⟩
    · cases bound : (member "contextHash" (mandate.get "constraints")).truthy with
      | false => exact .inl rfl
      | true => exact .inr (context_of_check (passed.context bound))
    · rw [property_ok starts, from_text]
    · rw [property_ok ends, exp_text]

end Passed

/-- An accepted mandate has every signature that is required or can be verified, and the accepted intent keeps its
constraints exactly where they can be compared with it. -/
theorem accepted_signed_covered {crypto : MandateCrypto} {verifier : MandateVerifier crypto} {platform : Platform}
    {states : List (JsString × RegisteredMandate)} {mandateId : JsString} {intent : PaymentIntent}
    {now : Throwing Number} {check : MandateCheck}
    (ran : verifier.check platform states mandateId intent now = .ok check) (accepted : check.ok = true) :
    ∃ state, states.lookup mandateId = some state ∧ verifier.Signed state.mandate ∧
      (Covered platform state.mandate intent now ↔ Comparable platform state.mandate intent now) := by
  unfold MandateVerifier.check at ran
  split at ran
  · cases ran
    cases accepted
  · rename_i state registered
    obtain ⟨problem, checked, ran⟩ := bind_ok ran
    cases problem with
    | some problem =>
      cases ran
      cases accepted
    | none =>
      exact ⟨state, registered, MandateVerifier.signed_of_signatureProblem checked,
        covered_iff_comparable (passed_of_shared ran accepted)⟩

/-! ### A limit that is missing -/

namespace Accepted

def keyDer : Bytes := ofHex "302a300506032b6570032100ea4a6c63e29c520abef5507b132ec5f9954776aebebe7b92421eea691446d22c"

/-- The payload of the mandate below. -/
def payload (limit : JsString) : Bytes :=
  utf8 (encode "vaduno-mandate/v1\n\x7b\"agentId\":\"agent-1\",\"alg\":\"Ed25519\",\"constraints\":\x7b" ++
    "\"currency\":\"USD\",\"expiresAt\":\"2027-01-01T00:00:00.000Z\"," ++ limit ++
    "\"maxUses\":1,\"merchants\":[\"openai\"],\"validFrom\":\"2026-01-01T00:00:00.000Z\"\x7d," ++
    "\"createdAt\":\"2026-01-01T00:00:00.000Z\",\"id\":\"m-1\",\"issuer\":\"alice\"," ++
    "\"kid\":\"a83a23944963c9b3\",\"v\":1\x7d")

def limitedSignature : JsString :=
  "pszTGytrRQvNYupVHq+v0VQcuwbb+TUkugAYh+jagMqfqPytxvid6nqG7tFejrQ8tcFmq4KWMWmAnZP37nlIBA=="

def unlimitedSignature : JsString :=
  "yo0WI+RPVXlutody8fG9V75/CXLNvt/gYY7WjGWpwb8CnQBOypDK7o8p14wUEIrPG6JxwOkLXdJVz/YhmuzMDQ=="

def keyDigest : JsString := "a83a23944963c9b3fb237888a85127d49b007bc33c831644ef09034976e5c44f"

theorem keyDigest_length : (ofHex keyDigest).length = 32 := by
  decide +kernel

/-- The id of the key is a true digest, and both signatures are the key's. -/
def crypto : MandateCrypto where
  sha256 _ := ⟨ofHex keyDigest, keyDigest_length⟩
  createPublicKey _ := .ok ⟨"ed25519", keyDer⟩
  edSign _ _ := .error .typeError
  edVerify message key signature := decide (key.spki = keyDer ∧
    (message = payload "\"maxAmountMinor\":1000," ∧ signature = ofBase64 limitedSignature ∨
      message = payload [] ∧ signature = ofBase64 unlimitedSignature))
  bufferFrom
    | .string s => .ok (ofBase64 s)
    | _ => .error .typeError

def verifier : MandateVerifier crypto where
  verifyKeys := [("a83a23944963c9b3", ⟨"ed25519", keyDer⟩)]
  ids := by
    intro entry listed
    obtain rfl := List.mem_singleton.mp listed
    decide +kernel
  mlDsa44VerifyKeys := []
  mlDsa44Ids := List.forall_mem_nil _
  pq := none
  requireAlgs := [mandateAlg]
  implemented := by simp [mandateV2Algs]

def mandate (limit : MandateObject) (signature : JsString) : MandateObject :=
  [("v", .number 1), ("alg", .string mandateAlg), ("kid", .string "a83a23944963c9b3"), ("id", .string "m-1"),
    ("issuer", .string "alice"), ("agentId", .string "agent-1"),
    ("constraints", .object (limit ++ [(encode "currency", .string "USD"),
      (encode "merchants", .array [.string "openai"]), (encode "validFrom", .string "2026-01-01T00:00:00.000Z"),
      (encode "expiresAt", .string "2027-01-01T00:00:00.000Z"), (encode "maxUses", .number 1)])),
    ("createdAt", .string "2026-01-01T00:00:00.000Z"), ("signature", .string signature)]

def limited : MandateObject := mandate [("maxAmountMinor", .number 1000)] limitedSignature
def unlimited : MandateObject := mandate [] unlimitedSignature

def checked (mandate : MandateObject) (amountMinor : Number) : Throwing MandateCheck :=
  verifier.check Vaduno.Sample.platform [("m-1", ⟨mandate, 0, false⟩)] "m-1" (paying amountMinor) (.ok 1780000000000)

theorem both_accepted : (checked limited 500).toOption = some .valid ∧
    (checked unlimited 1000000000).toOption = some .valid := by
  decide +kernel

/-- A payment within the limit is covered by a signed mandate. -/
theorem limited_covers : verifier.Signed limited ∧
    Covered Vaduno.Sample.platform limited (paying 500) (.ok 1780000000000) := by
  obtain ⟨state, registered, signed, covered⟩ := accepted_signed_covered (of_toOption both_accepted.1) rfl
  cases registered
  refine ⟨signed, covered.mpr ⟨by decide +kernel, ⟨1000, rfl, by decide +kernel⟩, ⟨_, rfl, by decide +kernel⟩,
    fun _ => ⟨_, rfl⟩, fun listed => ?_⟩⟩
  cases listed

/-- A mandate that is signed without a limit is accepted for any amount, and covers none. -/
theorem unlimited_accepted : (∃ check, checked unlimited 1000000000 = .ok check ∧ check.ok = true) ∧
    ¬Covered Vaduno.Sample.platform unlimited (paying 1000000000) (.ok 1780000000000) := by
  refine ⟨⟨_, of_toOption both_accepted.2, rfl⟩, fun covered => ?_⟩
  obtain ⟨max, limit, le⟩ := covered.amount
  cases limit
  cases (isNaN_of_le le).2

end Accepted
end Vaduno.Mandate
