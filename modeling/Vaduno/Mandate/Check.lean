import Vaduno.Policy.Matching
import Vaduno.Ledger.Hash

/-! Mandates, and the check of one against an intent. Both formats share everything that comes after
their signatures; how those are verified is a parameter here. -/
namespace Vaduno.Mandate
open Ecma Policy Ledger

structure MandateConstraints where
  maxAmountMinor : JsValue
  currency : JsString
  merchants : Option (List JsString)
  categories : Option (List JsString)
  validFrom : JsString
  expiresAt : JsString
  /-- Total number of times this mandate may authorize execution. -/
  maxUses : JsValue
  contextHash : Option JsString

/-- What both formats carry besides their signatures. -/
structure AnyMandate where
  id : JsString
  issuer : JsString
  agentId : JsString
  constraints : MandateConstraints
  createdAt : JsString
  /-- Version, algorithms, key ids and signatures, in the format's own shape. -/
  signatureData : JsValue

inductive CheckCode
  | ok
  | signatureInvalid
  | keyUnknown
  | algUnsupported
  | algRequirementNotMet
  | malformed
  | versionUnsupported
  | notYetValid
  | expired
  | timeUnparseable
  | revoked
  | usesExhausted
  | alreadyConsumed
  | contextMismatch
  | agentMismatch
  | currencyMismatch
  | amountExceedsMandate
  | merchantNotCovered
  | categoryNotCovered
  | unknownMandate
  deriving DecidableEq

def CheckCode.text : CheckCode → JsString
  | ok => "OK"
  | signatureInvalid => "SIGNATURE_INVALID"
  | keyUnknown => "KEY_UNKNOWN"
  | algUnsupported => "ALG_UNSUPPORTED"
  | algRequirementNotMet => "ALG_REQUIREMENT_NOT_MET"
  | malformed => "MALFORMED"
  | versionUnsupported => "VERSION_UNSUPPORTED"
  | notYetValid => "NOT_YET_VALID"
  | expired => "EXPIRED"
  | timeUnparseable => "TIME_UNPARSEABLE"
  | revoked => "REVOKED"
  | usesExhausted => "USES_EXHAUSTED"
  | alreadyConsumed => "ALREADY_CONSUMED"
  | contextMismatch => "CONTEXT_MISMATCH"
  | agentMismatch => "AGENT_MISMATCH"
  | currencyMismatch => "CURRENCY_MISMATCH"
  | amountExceedsMandate => "AMOUNT_EXCEEDS_MANDATE"
  | merchantNotCovered => "MERCHANT_NOT_COVERED"
  | categoryNotCovered => "CATEGORY_NOT_COVERED"
  | unknownMandate => "UNKNOWN_MANDATE"

structure MandateCheck where
  ok : Bool
  code : CheckCode
  message : JsString
  deriving DecidableEq

def MandateCheck.refuse (code : CheckCode) (message : JsString) : MandateCheck :=
  ⟨false, code, message⟩

def MandateCheck.valid : MandateCheck := ⟨true, .ok, "mandate valid"⟩

structure MandateState where
  mandate : AnyMandate
  uses : Number
  revoked : Bool

section
variable (platform : Platform)

def mandateContextHash (context : JsValue) : Throwing JsString :=
  return platform.sha256Hex ("vaduno-mandate-ctx/v1\n" ++ (← canonicalJson context))

/-- The context an intent must present to a context-bound mandate. Its well-known fields carry
enforced meaning. -/
def checkContext (boundCtx : JsString) (intent : PaymentIntent) : MandateCheck :=
  match intent.context with
  | some (.object props) =>
    match mandateContextHash platform (.object props) with
    | .error _ => .refuse .contextMismatch "intent context could not be canonicalized"
    | .ok presented =>
      if presented ≠ boundCtx then
        .refuse .contextMismatch "intent context does not hash to the mandate's contextHash"
      else
        match props.lookup (encode "agentId"), props.lookup (encode "merchantId") with
        | some (.string agentId), merchantId =>
          if agentId ≠ intent.agentId then
            .refuse .contextMismatch ("context is bound to agent \"" ++ agentId ++
              "\", intent is from \"" ++ intent.agentId ++ "\"")
          else checkMerchant merchantId
        | _, merchantId => checkMerchant merchantId
  | some (.foreign (some _) _ _) =>
    .refuse .contextMismatch "intent context could not be canonicalized"
  | _ =>
    .refuse .contextMismatch "mandate is context-bound but the intent carries no context object"
where
  checkMerchant : Option JsValue → MandateCheck
    | some (.string merchantId) =>
      if merchantId ≠ intent.merchant.id then
        .refuse .contextMismatch ("context is bound to merchant \"" ++ merchantId ++
          "\", intent pays \"" ++ intent.merchant.id ++ "\"")
      else .valid
    | _ => .valid

/-- The checks after the clock: the validity period, the uses and every constraint. -/
def checkConstraints (mandate : AnyMandate) (intent : PaymentIntent) (uses nowMs : Number) :
    Throwing MandateCheck := do
  let constraints := mandate.constraints
  let fromMs := platform.dateParse constraints.validFrom
  let expMs := platform.dateParse constraints.expiresAt
  if fromMs.isNaN || expMs.isNaN then
    return .refuse .timeUnparseable "mandate validFrom/expiresAt is not a parseable timestamp"
  if nowMs < fromMs then
    return .refuse .notYetValid ("mandate valid from " ++ constraints.validFrom)
  if expMs ≤ nowMs then
    return .refuse .expired ("mandate expired at " ++ constraints.expiresAt)
  if ← platform.reaches uses constraints.maxUses then
    return .refuse .usesExhausted ("mandate already used " ++ uses.toText ++ "/" ++
      (← constraints.maxUses.toText) ++ " times")
  if mandate.agentId ≠ intent.agentId then
    return .refuse .agentMismatch ("mandate issued to agent \"" ++ mandate.agentId ++
      "\", intent is from \"" ++ intent.agentId ++ "\"")
  if platform.toUpperCase constraints.currency ≠ platform.toUpperCase intent.amount.currency then
    return .refuse .currencyMismatch ("mandate currency " ++ constraints.currency ++
      " != intent " ++ intent.amount.currency)
  if ← platform.exceeds intent.amount.amountMinor constraints.maxAmountMinor then
    return .refuse .amountExceedsMandate (intent.amount.amountMinor.toText ++
      " exceeds mandate max " ++ (← constraints.maxAmountMinor.toText))
  let merchants := constraints.merchants.getD []
  if merchants ≠ [] && !merchants.any (merchantMatches platform intent.merchant) then
    return .refuse .merchantNotCovered ("merchant \"" ++ intent.merchant.id ++
      "\" is not covered by this mandate")
  let categories := constraints.categories.getD []
  let cat := (intent.category.map platform.toLowerCase).getD []
  if categories ≠ [] && (cat = [] || !(categories.map platform.toLowerCase).contains cat) then
    return .refuse .categoryNotCovered ("category \"" ++ intent.category.getD "(none)" ++
      "\" is not covered by this mandate")
  match constraints.contextHash with
  | none | some [] => return .valid
  | some boundCtx => return checkContext platform boundCtx intent

end
end Vaduno.Mandate
