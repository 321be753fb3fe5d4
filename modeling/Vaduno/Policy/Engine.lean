import Vaduno.Mandate.Consume

/-! Deterministic policy evaluation. Deny reasons are collected exhaustively, so that the audit trail
shows every rule an intent violated; the rolling windows are the advisory check, read from the
history one window at a time. -/
namespace Vaduno.Policy
open Ecma Enforce Program

def dayMs : Number := 24 * 60 * 60 * 1000

/-- One limit or several: every listed limit is a window of its own. -/
def countLimits : JsValue → List JsValue
  | .undefined | .null => []
  | .array limits => limits
  | limit => [limit]

/-- Non-numbers become NaN, never coerced. -/
def numOrNaN : JsValue → Number
  | .number n => n
  | _ => .nan

/-- `limit?.name`. -/
def member (name : JsString) : JsValue → JsValue
  | .object props => (props.lookup name).getD .undefined
  | _ => .undefined

def textOf : JsValue → Option JsString
  | .string text => some text
  | _ => none

def countWindow (code : JsString) (dimension limit : JsValue) : SpendWindow where
  code := code
  windowMs := .number (numOrNaN (member "perSeconds" limit) * 1000)
  capMinor := .undefined
  maxCount := .number (numOrNaN (member "count" limit))
  dimension := dimension

def amountWindow (capMinor : JsValue) (windowMs : Number) (code : JsString) : List SpendWindow :=
  if isUndefined capMinor then []
  else [{
    code := code
    windowMs := .number windowMs
    capMinor := capMinor
    maxCount := .undefined
    dimension := .undefined }]

/-- The rolling constraints a policy implies, in one place: the advisory check and the limiter both
take their windows from here. -/
def policyWindows (policy : SpendPolicy) : List SpendWindow :=
  amountWindow policy.limits.perDayMinor dayMs "PER_DAY_LIMIT_EXCEEDED" ++
  amountWindow policy.limits.perWeekMinor (7 * dayMs) "PER_WEEK_LIMIT_EXCEEDED" ++
  amountWindow policy.limits.perMonthMinor (30 * dayMs) "PER_MONTH_LIMIT_EXCEEDED" ++
  (countLimits policy.velocity.maxTransactions).map (countWindow "VELOCITY_EXCEEDED" .undefined) ++
  (countLimits policy.velocity.maxTransactionsPerMerchant).map
    (countWindow "MERCHANT_VELOCITY_EXCEEDED" (.string "merchant"))

section Reasons
variable (platform : Platform) (intent : PaymentIntent) (policy : SpendPolicy)

/-- One reason if a rule is violated. -/
def reasonIf (violated : Bool) (code message : JsString) : List PolicyReason :=
  if violated then [⟨code, message⟩] else []

def amountValid : Bool :=
  intent.amount.amountMinor.isSafeInteger && !decide (intent.amount.amountMinor ≤ 0)

def amountReasons : List PolicyReason :=
  reasonIf (!amountValid intent) "INVALID_AMOUNT"
    ("amountMinor must be a positive safe integer, got " ++ intent.amount.amountMinor.toText)

def expiryReasons (nowMs : Number) : List PolicyReason :=
  match policy.expiresAt with
  | none => []
  | some expiresAt =>
    let expMs := platform.dateParse expiresAt
    if expMs.isNaN then [⟨"POLICY_EXPIRY_UNPARSEABLE",
      "policy.expiresAt \"" ++ expiresAt ++ "\" is not a parseable timestamp"⟩]
    else reasonIf (expMs ≤ nowMs) "POLICY_EXPIRED"
      ("policy " ++ policy.id ++ " expired at " ++ expiresAt)

def currencyReasons : List PolicyReason :=
  reasonIf (platform.toUpperCase intent.amount.currency ≠ platform.toUpperCase policy.currency)
    "CURRENCY_MISMATCH"
    ("policy currency is " ++ policy.currency ++ ", intent is " ++ intent.amount.currency)

def railReasons : List PolicyReason :=
  match policy.rails with
  | none => []
  | some allow =>
    reasonIf (!(allow.map platform.toLowerCase).contains (platform.toLowerCase intent.rail))
      "RAIL_NOT_ALLOWED" ("rail \"" ++ intent.rail ++ "\" is not in the allowed rails list")

/-- `JSON.stringify(entry ?? null)`. -/
def entryJson : JsValue → Throwing JsString
  | .undefined => .ok "null"
  | entry => return (← entry.stringify).getD []

def networkReasons : Throwing (List PolicyReason) := do
  if policy.networks.allow.isNone && policy.networks.block.isNone then return []
  let configured := policy.networks.allow.getD [] ++ policy.networks.block.getD []
  let unusable := configured.filter fun n => (normNetwork platform n).isNone
  if unusable ≠ [] then
    let entries ← unusable.mapM entryJson
    return [⟨"NETWORK_POLICY_INVALID",
      "policy.networks contains " ++ natText unusable.length ++ " entr" ++
        (if unusable.length = 1 then "y" else "ies") ++ " that cannot canonically identify a " ++
        "network (" ++ joinWith ", " entries ++ "); refusing everything under this policy rather " ++
        "than enforcing a constraint with holes"⟩]
  let named := (intent.network.map JsValue.string).getD .undefined
  match normNetwork platform named with
  | none =>
    if (intent.network.map platform.trim).getD [] ≠ [] then
      return [⟨"NETWORK_UNPARSEABLE", "policy " ++ policy.id ++ " constrains the settlement " ++
        "network but the intent's network id " ++ (← entryJson named) ++ " does not parse as a " ++
        "canonical chain id (CAIP-2) or a bare network name; refusing rather than passing an id " ++
        "no list entry can match"⟩]
    else
      return [⟨"NETWORK_MISSING", "policy " ++ policy.id ++ " constrains the settlement network " ++
        "but the intent states none (got " ++ (← entryJson named) ++ ")"⟩]
  | some network =>
    let text := intent.network.getD "undefined"
    let names := fun n => normNetwork platform n == some network
    return reasonIf ((policy.networks.block.getD []).any names) "NETWORK_BLOCKED"
        ("network \"" ++ text ++ "\" is blocklisted") ++
      match policy.networks.allow with
      | none => []
      | some allow => reasonIf (!allow.any names) "NETWORK_NOT_ALLOWED"
          ("network \"" ++ text ++ "\" is not on the allowlist")
where
  joinWith (sep : JsString) : List JsString → JsString
    | [] => []
    | [last] => last
    | item :: rest => item ++ sep ++ joinWith sep rest

def merchantReasons : List PolicyReason :=
  let url := intent.merchant.url.getD "no url"
  let block := policy.merchants.block.getD []
  reasonIf (block.any (isHostForm platform) && (parsedHost platform intent.merchant.url).isNone)
    "MERCHANT_URL_UNVERIFIABLE"
    ("merchants.block contains a host pattern but the intent carries no parseable merchant.url (" ++
      (match intent.merchant.url with | none => encode "null" | some url => quote url) ++
      "); a blocklist that cannot be evaluated denies rather than passes") ++
  reasonIf (block.any (merchantMatches platform intent.merchant)) "MERCHANT_BLOCKED"
    ("merchant \"" ++ intent.merchant.id ++ "\" (" ++ url ++ ") is blocklisted") ++
  match policy.merchants.allow with
  | none => []
  | some allow => reasonIf (!allow.any (merchantMatches platform intent.merchant))
      "MERCHANT_NOT_ALLOWED"
      ("merchant \"" ++ intent.merchant.id ++ "\" (" ++ url ++ ") is not on the allowlist")

/-- An absent category is the empty one. -/
def categoryReasons : List PolicyReason :=
  let named := intent.category.getD []
  let category := platform.toLowerCase named
  reasonIf (named ≠ [] && category ≠ [] &&
      ((policy.categories.block.getD []).map platform.toLowerCase).contains category)
    "CATEGORY_BLOCKED" ("category \"" ++ named ++ "\" is blocklisted") ++
  match policy.categories.allow with
  | none => []
  | some allow => reasonIf
      (named = [] || category = [] || !(allow.map platform.toLowerCase).contains category)
      "CATEGORY_NOT_ALLOWED"
      ("category \"" ++ intent.category.getD "(none)" ++ "\" is not on the allowlist")

def perTransactionReasons : Throwing (List PolicyReason) := do
  let limit := policy.limits.perTransactionMinor
  if !amountValid intent || isUndefined limit then return []
  return reasonIf (← platform.exceeds intent.amount.amountMinor limit) "PER_TXN_LIMIT_EXCEEDED"
    (intent.amount.amountMinor.toText ++ " exceeds per-transaction limit " ++
      (← limit.toText))

/-- The rules that need no history, in the order they are reported. -/
def staticReasons (nowMs : Number) : Throwing (List PolicyReason) := do
  return amountReasons intent ++ expiryReasons platform policy nowMs ++
    currencyReasons platform intent policy ++ railReasons platform intent policy ++
    (← networkReasons platform intent policy) ++ merchantReasons platform intent policy ++
    categoryReasons platform intent policy ++ (← perTransactionReasons platform intent policy)

/-- One merchant window against what the history counts for the merchant. -/
def merchantWindowReasons (w : SpendWindow) (count : Number) : List PolicyReason :=
  reasonIf (!isUndefined w.maxCount && decide (checkedNumber w.maxCount < count + 1)) w.code
    (count.toText ++ " transactions for this merchant in window; limit is " ++
      (checkedNumber w.maxCount).toText)

/-- One window against the totals of the history. A total that is no safe integer is refused, so that
it can never satisfy the comparison as false. -/
def windowReasons (w : SpendWindow) (totals : SpendTotals) : List PolicyReason :=
  let amount := intent.amount.amountMinor
  reasonIf (!isUndefined w.capMinor && (!totals.totalMinor.isSafeInteger ||
      decide (checkedNumber w.capMinor < totals.totalMinor + amount))) w.code
    ("spent " ++ totals.totalMinor.toText ++ " in window; +" ++ amount.toText ++
      " would exceed limit " ++ (checkedNumber w.capMinor).toText) ++
  reasonIf (!isUndefined w.maxCount && decide (checkedNumber w.maxCount < totals.count + 1)) w.code
    (totals.count.toText ++ " transactions in window; limit is " ++
      (checkedNumber w.maxCount).toText)

/-- The history of one window. `countsMerchants` says whether the history can attribute spend to a
merchant; where it cannot, the limiter still enforces the window. -/
def windowAdvice (countsMerchants : Bool) (nowMs : Number) (w : SpendWindow) :
    Program (List PolicyReason) := do
  if !isUndefined w.capMinor && !amountValid intent then return []
  let since ← Async.settled (platform.toISOString (nowMs - checkedNumber w.windowMs))
  if perMerchant w then
    if !countsMerchants then return []
    let count ← orThrow (ask (.merchantCountSince intent.agentId
      (merchantKeyOf platform intent.merchant) since policy.currency))
    return merchantWindowReasons w count
  let totals ← orThrow (ask (.totalsSince intent.agentId since policy.currency))
  return windowReasons intent w totals

def windowsAdvice (countsMerchants : Bool) (nowMs : Number) :
    List SpendWindow → Program (List PolicyReason)
  | [] => return []
  | w :: rest => do
    let reasons ← windowAdvice platform intent policy countsMerchants nowMs w
    return reasons ++ (← windowsAdvice countsMerchants nowMs rest)

/-- What is wrong with the configuration of the first malformed window. Every window is looked at. -/
def misconfigured (windows : List SpendWindow) : Throwing (Option PolicyReason) := do
  let problems ← windows.mapM fun w => return (w, ← windowConfigError w)
  return problems.findSome? fun (w, problem) => problem.map fun problem =>
    ⟨"SPEND_WINDOW_INVALID", "window \"" ++ w.code ++ "\" is misconfigured (" ++ problem ++
      "); refusing everything under this policy rather than enforcing nothing"⟩

/-- What becomes of an intent without deny reasons. -/
def approvalDecision : Throwing PolicyResult := do
  let above := policy.approval.aboveMinor
  if policy.approval.always then
    return ⟨.requireApproval,
      [⟨"APPROVAL_ALWAYS", "policy requires approval for every transaction"⟩],
      policy.id, policy.version⟩
  if isUndefined above then return ⟨.allow, [], policy.id, policy.version⟩
  if ← platform.reaches intent.amount.amountMinor above then
    return ⟨.requireApproval,
      [⟨"APPROVAL_THRESHOLD", "amount " ++ intent.amount.amountMinor.toText ++
        " >= approval threshold " ++ (← above.toText)⟩],
      policy.id, policy.version⟩
  return ⟨.allow, [], policy.id, policy.version⟩

def evaluatePolicy (countsMerchants : Bool) : Program PolicyResult := do
  let nowMs ← ask .now
  let reasons ← Async.settled (staticReasons platform intent policy nowMs)
  let windows := policyWindows policy
  let advice ← match ← Async.settled (misconfigured windows) with
    | some reason => pure [reason]
    | none => windowsAdvice platform intent policy countsMerchants nowMs windows
  if reasons ++ advice ≠ [] then
    return ⟨.deny, reasons ++ advice, policy.id, policy.version⟩
  Async.settled (approvalDecision platform intent policy)

end Reasons
end Vaduno.Policy
