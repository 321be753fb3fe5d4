import Vaduno.Ecma.IntegerText
import Vaduno.Guard.Entry
import Vaduno.X402.Parse

/-! The intent that a chosen requirement is paid as. The recipient, the network and the amount are the requirement's;
the address is the one that is contacted, never the one the server claims; the currency is the registry's where there
is one. -/
namespace Vaduno.X402
open Ecma Guard

/-- An amount in atomic units, NaN where it is no positive safe integer in digits. -/
def parseAtomicAmount (platform : Platform) (s : JsString) : Number :=
  if isDigits s then
    let n := platform.stringToNumber s
    if n.isSafeInteger && decide (0 < n) then n else .nan
  else .nan

namespace Extra

def text (extra : Extra) (k : JsString) : Option JsString :=
  JsonValue.optionalText ((JsonValue.object extra.props).get k)

def decimalsNumber (extra : Extra) : Option Number :=
  ((JsonValue.object extra.props).get "decimals").map fun v => JsonValue.toNumber (some v)

end Extra

/-- What a requirement of either version says about the payment. -/
structure Terms where
  scheme : JsString
  network : JsString
  /-- In atomic units. -/
  amount : JsString
  payTo : JsString
  asset : JsString
  /-- The server's own claim about what is paid for. -/
  resourceClaimed : JsString
  description : Option JsString
  extra : Option Extra

def PaymentRequirements.terms (req : PaymentRequirements) : Terms where
  scheme := req.scheme.1
  network := req.network.1
  amount := req.maxAmountRequired.1
  payTo := req.payTo.1
  asset := req.asset.1
  resourceClaimed := req.resource.1
  description := req.description
  extra := req.extra

def PaymentRequirementsV2.terms (req : PaymentRequirementsV2) (resource : ResourceInfo) : Terms where
  scheme := req.scheme.1
  network := req.network.1
  amount := req.amount.1
  payTo := req.payTo.1
  asset := req.asset.1
  resourceClaimed := resource.url.1
  description := resource.description
  extra := req.extra

structure RequirementToIntentOptions where
  agentId : JsString
  intentId : JsString
  /-- The address that is contacted. -/
  requestUrl : JsString
  /-- The registry's symbol for the token. -/
  currency : Option JsString
  category : Option JsString
  mandateId : Option JsString
  requestedAt : JsString

/-- An intent with the fields that no rule reads. -/
structure X402Intent where
  payment : PaymentIntent
  merchantName : Option JsString
  requestedAt : JsString
  metadata : List (JsString × GraphValue)
  description : Option JsString

/-- What both versions make of their terms; the metadata that is their own stands first and after what they share. -/
def termsToIntent (platform : Platform) (terms : Terms) (first versioned : List (JsString × GraphValue))
    (opts : RequirementToIntentOptions) : X402Intent where
  payment := {
    id := opts.intentId
    agentId := opts.agentId
    merchant := ⟨terms.payTo, some opts.requestUrl⟩
    amount := ⟨parseAtomicAmount platform terms.amount,
      platform.toUpperCase ((opts.currency.orElse fun _ => terms.extra.bind (·.text "symbol")).getD terms.asset)⟩
    category := opts.category
    rail := "x402"
    network := some terms.network
    mandateId := opts.mandateId
    context := none }
  -- an empty name is none
  merchantName := (terms.extra.bind (·.text "name")).filter (· ≠ [])
  requestedAt := opts.requestedAt
  metadata := first ++ [(encode "scheme", .string terms.scheme), (encode "network", .string terms.network),
      (encode "asset", .string terms.asset), (encode "payTo", .string terms.payTo),
      (encode "requestUrl", .string opts.requestUrl), (encode "resourceClaimed", .string terms.resourceClaimed)] ++
    versioned ++ ((terms.extra.bind Extra.decimalsNumber).map fun n => (encode "decimals", .number n)).toList
  description := terms.description

def requirementToIntent (platform : Platform) (req : PaymentRequirements) (opts : RequirementToIntentOptions) :
    X402Intent :=
  termsToIntent platform req.terms [] [(encode "maxAmountRequired", .string req.maxAmountRequired.1)] opts

def requirementToIntentV2 (platform : Platform) (req : PaymentRequirementsV2) (resource : ResourceInfo)
    (opts : RequirementToIntentOptions) : X402Intent :=
  termsToIntent platform (req.terms resource) [(encode "x402Version", .number 2)]
    [(encode "amount", .string req.amount.1), (encode "maxTimeoutSeconds", .number req.maxTimeoutSeconds.1)] opts

namespace X402Intent

def optionalProp (name : JsString) (text : Option JsString) : List (JsString × GraphValue) :=
  (text.map fun s => (name, .string s)).toList

/-- The object that the guard is given: the intent, its merchant, its amount and its metadata. -/
def heap (intent : X402Intent) : Heap
  | 0 => .object ([(encode "id", .string intent.payment.id), (encode "agentId", .string intent.payment.agentId),
      (encode "merchant", .ref 1), (encode "amount", .ref 2), (encode "rail", .string intent.payment.rail)] ++
      optionalProp "network" intent.payment.network ++
      [(encode "requestedAt", .string intent.requestedAt), (encode "metadata", .ref 3)] ++
      optionalProp "category" intent.payment.category ++ optionalProp "mandateId" intent.payment.mandateId ++
      optionalProp "description" intent.description)
  | 1 => .object ((encode "id", .string intent.payment.merchant.id) ::
      optionalProp "url" intent.payment.merchant.url ++ optionalProp "name" intent.merchantName)
  | 2 => .object [(encode "amountMinor", .number intent.payment.amount.amountMinor),
      (encode "currency", .string intent.payment.amount.currency)]
  | _ => .object intent.metadata

/-- The clone that the guard inspects. -/
def submitted (intent : X402Intent) : Submitted := .cloned (inspected intent.heap (.ref 0) intent.payment)

end X402Intent

/-! ### Amounts -/

section Amounts
variable {platform : Platform}

/-- `Number` of a run of digits is the number nearest to what they stand for. -/
def ReadsDigits (platform : Platform) : Prop :=
  ∀ s, isDigits s = true → platform.stringToNumber s = ((digitsValue s : ℕ) : ℤ)

/-- An amount that counts is exactly the one in the text, whatever number that text is near to. -/
theorem parseAtomicAmount_exact (reads : ReadsDigits platform) {s : JsString}
    (safe : (parseAtomicAmount platform s).isSafeInteger = true) :
    isDigits s = true ∧ 0 < digitsValue s ∧ digitsValue s < 2 ^ 53 ∧
      parseAtomicAmount platform s = ((digitsValue s : ℕ) : ℤ) := by
  unfold parseAtomicAmount at safe ⊢
  by_cases digits : isDigits s = true
  · rw [if_pos digits, reads s digits] at safe ⊢
    dsimp only at safe ⊢
    by_cases counted : (((digitsValue s : ℕ) : ℤ) : Number).isSafeInteger = true ∧
        (0 : Number) < ((digitsValue s : ℕ) : ℤ)
    · rw [if_pos (by simpa using counted)] at safe ⊢
      obtain ⟨n, narrow, same⟩ := Number.isSafeInteger_iff.mp safe
      obtain rfl : ((digitsValue s : ℕ) : ℤ) = n := intCast_inj narrow same
      rw [Nat.abs_cast] at narrow
      have small : digitsValue s < 2 ^ 53 := by exact_mod_cast narrow
      refine ⟨digits, ?_, small, rfl⟩
      exact (Number.natCast_lt (m := 0) (by norm_num) small).mp counted.2
    · rw [if_neg (by simpa using counted)] at safe
      cases safe
  · rw [if_neg digits] at safe
    cases safe

end Amounts
end Vaduno.X402
