import Vaduno.Guard.Entry

/-! The intent that an authorization of a card is decided as. The amount is the one that is requested now; the merchant
is who the network says it is, and a name that anybody can choose is marked as one. -/
namespace Vaduno.Stripe
open Ecma Guard

structure StripeMerchantData where
  name : Option JsString
  category : Option JsString
  categoryCode : Option JsString
  networkId : Option JsString
  city : Option JsString
  country : Option JsString

structure StripePendingRequest where
  /-- In the smallest unit of the card's currency. -/
  amount : Number
  currency : JsString
  isAmountControllable : Option Bool
  merchantAmount : Option Number
  merchantCurrency : Option JsString
  networkRiskScore : Option Number

structure StripeCard where
  id : Option JsString
  metadata : List (JsString × JsString)

structure StripeAuthorization where
  id : JsString
  currency : JsString
  created : Number
  authorizationMethod : Option JsString
  merchantData : Option StripeMerchantData
  pendingRequest : Option StripePendingRequest
  card : Option StripeCard
  /-- The id of the cardholder, who may be given whole. -/
  cardholder : Option JsString

structure AuthorizationToIntentOptions where
  agentIdFor : Option (StripeAuthorization → Throwing JsString)
  category : Option JsString
  mandateIdFor : Option (StripeAuthorization → Throwing (Option JsString))

/-- `[a-z0-9]`. -/
def isSlugUnit (u : UInt16) : Bool := (97 ≤ u && u ≤ 122) || (48 ≤ u && u ≤ 57)

/-- Every run of other units as one dash. -/
def dashed : JsString → JsString
  | [] => []
  | u :: rest =>
    if isSlugUnit u then u :: dashed rest
    else
      match dashed rest with
      | 45 :: more => 45 :: more
      | more => 45 :: more

/-- `replace(/^-+|-+$/g, "")`. -/
def undashed (s : JsString) : JsString := ((s.dropWhile (· = 45)).reverse.dropWhile (· = 45)).reverse

def slug (platform : Platform) (s : JsString) : JsString :=
  match (undashed (dashed (platform.toLowerCase s))).take 64 with
  | [] => "unknown"
  | name => name

/-- An amount that is none is denied later on. -/
def amountMinorOf (auth : StripeAuthorization) : Number :=
  match auth.pendingRequest with
  | none => .nan
  | some pr => if pr.amount.isSafeInteger && decide (0 < pr.amount) then pr.amount else .nan

theorem amountMinorOf_safe {auth : StripeAuthorization} (safe : (amountMinorOf auth).isSafeInteger = true) :
    ∃ pr, auth.pendingRequest = some pr ∧ amountMinorOf auth = pr.amount := by
  unfold amountMinorOf at safe ⊢
  cases pending : auth.pendingRequest with
  | none =>
    rw [pending] at safe
    cases safe
  | some pr =>
    rw [pending] at safe
    dsimp only at safe ⊢
    split_ifs at safe ⊢
    · exact ⟨pr, rfl, rfl⟩
    · cases safe

/-- A name is no id, and stands apart from every id of the network. -/
def merchantIdOf (platform : Platform) (md : StripeMerchantData) : JsString :=
  let networkId := (md.networkId.filter (· ≠ [])).map platform.trim
  (networkId.filter (· ≠ [])).getD
    ("unverified:" ++ slug platform (md.name.getD "unknown" ++ "-" ++ md.country.getD []))

/-- `auth.merchant_data ?? {}`. -/
def merchantDataOf (auth : StripeAuthorization) : StripeMerchantData :=
  auth.merchantData.getD ⟨none, none, none, none, none, none⟩

def agentIdOf (opts : AuthorizationToIntentOptions) (auth : StripeAuthorization) : Throwing JsString :=
  match opts.agentIdFor with
  | some agentIdFor => agentIdFor auth
  | none => .ok (((auth.card.bind (·.metadata.lookup (encode "agent_id"))).orElse fun _ =>
      auth.card.bind (·.id)).getD "unknown-agent")

def mandateIdOf (opts : AuthorizationToIntentOptions) (auth : StripeAuthorization) : Throwing (Option JsString) :=
  match opts.mandateIdFor with
  | some mandateIdFor => mandateIdFor auth
  | none => .ok none

/-- An intent with the fields that no rule reads. -/
structure StripeIntent where
  payment : PaymentIntent
  merchantName : Option JsString
  requestedAt : JsString
  metadata : List (JsString × GraphValue)

def stripePayment (platform : Platform) (opts : AuthorizationToIntentOptions) (auth : StripeAuthorization)
    (agentId : JsString) (mandateId : Option JsString) : PaymentIntent where
  id := auth.id
  agentId := agentId
  merchant := ⟨merchantIdOf platform (merchantDataOf auth), none⟩
  amount := ⟨amountMinorOf auth, platform.toUpperCase ((auth.pendingRequest.map (·.currency)).getD auth.currency)⟩
  category := opts.category.orElse fun _ => (merchantDataOf auth).category
  rail := "stripe-issuing"
  network := none
  mandateId := mandateId
  context := none

def textProp (name : JsString) (text : Option JsString) : JsString × GraphValue :=
  (name, (text.map GraphValue.string).getD .undefined)

def numberProp (name : JsString) (n : Option Number) : JsString × GraphValue :=
  (name, (n.map GraphValue.number).getD .undefined)

def metadataOf (auth : StripeAuthorization) : List (JsString × GraphValue) :=
  let md := merchantDataOf auth
  let pr := auth.pendingRequest
  [textProp "authorization_method" auth.authorizationMethod, textProp "merchant_name" md.name,
    textProp "merchant_category" md.category, textProp "merchant_category_code" md.categoryCode,
    textProp "merchant_network_id" md.networkId, textProp "merchant_country" md.country,
    textProp "merchant_city" md.city,
    (encode "is_amount_controllable", .boolean ((pr.bind (·.isAmountControllable)).getD false)),
    numberProp "merchant_amount" (pr.bind (·.merchantAmount)),
    textProp "merchant_currency" (pr.bind (·.merchantCurrency)),
    numberProp "network_risk_score" (pr.bind (·.networkRiskScore)), textProp "card_id" (auth.card.bind (·.id)),
    textProp "cardholder" auth.cardholder, numberProp "stripe_created" (some auth.created)]

namespace StripeIntent

def optionalProp (name : JsString) (text : Option JsString) : List (JsString × GraphValue) :=
  (text.map fun s => (name, .string s)).toList

/-- The object that the guard is given: the intent, its merchant, its amount and its metadata. -/
def heap (intent : StripeIntent) : Heap
  | 0 => .object ([(encode "id", .string intent.payment.id), (encode "agentId", .string intent.payment.agentId),
      (encode "merchant", .ref 1), (encode "amount", .ref 2), (encode "rail", .string intent.payment.rail),
      (encode "requestedAt", .string intent.requestedAt), (encode "metadata", .ref 3)] ++
      optionalProp "category" intent.payment.category ++ optionalProp "mandateId" intent.payment.mandateId)
  | 1 => .object ((encode "id", .string intent.payment.merchant.id) :: optionalProp "name" intent.merchantName)
  | 2 => .object [(encode "amountMinor", .number intent.payment.amount.amountMinor),
      (encode "currency", .string intent.payment.amount.currency)]
  | _ => .object intent.metadata

/-- The clone that the guard inspects. -/
def submitted (intent : StripeIntent) : Submitted := .cloned (inspected intent.heap (.ref 0) intent.payment)

end StripeIntent
end Vaduno.Stripe
