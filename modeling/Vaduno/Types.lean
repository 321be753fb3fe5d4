import Vaduno.Ecma.Json

/-! The data that crosses the guard: intents, policies and their results, and what this library
takes from its platform. -/
namespace Vaduno
open Ecma

/-- What the language's own library and the installed packages provide, where the source only
calls it. -/
structure Platform where
  toLowerCase : JsString → JsString
  toUpperCase : JsString → JsString
  trim : JsString → JsString
  /-- `Date.parse`: epoch milliseconds, NaN where the text is no timestamp. -/
  dateParse : JsString → Number
  /-- `new Date(ms).toISOString()`, which throws on a time outside the calendar. -/
  toISOString : Number → Throwing JsString
  /-- `new URL(url).hostname`, `none` where the URL does not parse. -/
  hostname : JsString → Option JsString
  /-- SHA-256 over the UTF-8 bytes, as lower-case hex. -/
  sha256Hex : JsString → JsString
  /-- `Number(text)`. -/
  stringToNumber : JsString → Number

/-- `n >= limit`, for a limit of any type. -/
def Platform.reaches (platform : Platform) (n : Number) (limit : JsValue) : Throwing Bool :=
  return decide ((← limit.toNumber platform.stringToNumber) ≤ n)

/-- `n > limit`, for a limit of any type. -/
def Platform.exceeds (platform : Platform) (n : Number) (limit : JsValue) : Throwing Bool :=
  return decide ((← limit.toNumber platform.stringToNumber) < n)

@[simp] theorem Platform.reaches_number (platform : Platform) (n limit : Number) :
    platform.reaches n (.number limit) = .ok (decide (limit ≤ n)) := rfl

@[simp] theorem Platform.exceeds_number (platform : Platform) (n limit : Number) :
    platform.exceeds n (.number limit) = .ok (decide (limit < n)) := rfl

structure Money where
  amountMinor : Number
  currency : JsString

structure MerchantRef where
  id : JsString
  url : Option JsString

/-- A payment an agent asks for. Absent optional fields are `none`. -/
structure PaymentIntent where
  id : JsString
  agentId : JsString
  merchant : MerchantRef
  amount : Money
  category : Option JsString
  rail : JsString
  network : Option JsString
  mandateId : Option JsString
  context : Option JsValue

/-- The amounts a policy caps; a limit that is absent is `undefined`. -/
structure SpendLimits where
  perTransactionMinor : JsValue
  perDayMinor : JsValue
  perWeekMinor : JsValue
  perMonthMinor : JsValue

structure NameLists where
  allow : Option (List JsString)
  block : Option (List JsString)

/-- The entries are only strings once they have been looked at. -/
structure NetworkLists where
  allow : Option (List JsValue)
  block : Option (List JsValue)

structure ApprovalRules where
  aboveMinor : JsValue
  always : Bool

/-- Count limits as configuration gives them: one limit, a list of limits, or nothing. -/
structure VelocityRules where
  maxTransactions : JsValue
  maxTransactionsPerMerchant : JsValue

/-- Declarative spend policy. Windows are rolling: they end now. -/
structure SpendPolicy where
  id : JsString
  version : Number
  /-- Intents in any other currency are denied. -/
  currency : JsString
  limits : SpendLimits
  merchants : NameLists
  networks : NetworkLists
  categories : NameLists
  rails : Option (List JsString)
  approval : ApprovalRules
  velocity : VelocityRules
  expiresAt : Option JsString

inductive PolicyDecision
  | allow
  | deny
  | requireApproval
  deriving DecidableEq

structure PolicyReason where
  code : JsString
  message : JsString
  deriving DecidableEq

structure PolicyResult where
  decision : PolicyDecision
  reasons : List PolicyReason
  policyId : JsString
  policyVersion : Number
  deriving DecidableEq

end Vaduno
