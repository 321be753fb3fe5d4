import Vaduno.Async.Refine
import Vaduno.Ecma.Base64
import Vaduno.Ecma.Utf8Read
import Vaduno.X402.Intent

/-! A fetch that pays. A 402 answer is read as a demand of either version; what was chosen of it passes the gates of
the configuration, becomes an intent, and is paid by the guard's executor: the payer signs, and the request is sent
again with what it signed. -/
namespace Vaduno.X402
open Ecma Guard

/-- What the web platform adds. -/
structure WebPlatform extends Platform where
  /-- `new URL(url).origin`, `none` where the URL does not parse. -/
  origin : JsString → Option JsString
  /-- A header's value as it is kept, `none` where `Headers.set` throws. -/
  headerValue : JsString → Option JsString
  /-- `Buffer.from(text, "base64")` of any text. -/
  decodeBase64 : JsString → Bytes
  /-- How deep `JSON.stringify` can nest. -/
  stack : ℕ

/-! ### Requests and responses -/

/-- The names of headers have no case. -/
def byteLowercase (name : JsString) : JsString := name.map fun u => if 65 ≤ u && u ≤ 90 then u + 32 else u

/-- Header fields under their lower-case names. -/
abbrev Headers := List (JsString × JsString)

namespace Headers

def get (headers : Headers) (name : JsString) : Option JsString :=
  (headers.find? (·.1 = byteLowercase name)).map (·.2)

def set (headers : Headers) (name value : JsString) : Headers :=
  if headers.any (·.1 = byteLowercase name) then
    headers.map fun p => if p.1 = byteLowercase name then (p.1, value) else p
  else headers ++ [(byteLowercase name, value)]

end Headers

/-- What a body's reader gives, chunk by chunk. -/
inductive Stream
  | ended
  /-- Reading throws. -/
  | broken
  | chunk (bytes : Bytes) (rest : Stream)

structure Response where
  status : ℕ
  headers : Headers
  body : Option Stream

def Response.ok (r : Response) : Bool := 200 ≤ r.status && r.status ≤ 299

/-- `RequestInit`; what is left of it is passed on as it is. -/
structure RequestInit where
  method : Option JsString
  headers : Option Headers
  body : Option JsValue
  others : List (JsString × JsValue)

/-- `string | URL | Request`. A URL is its text; buffering the body of a request can throw. -/
inductive RequestInput
  | text (url : JsString)
  | request (url method : JsString) (headers : Headers) (body : Option (Throwing JsValue))

/-- The init that the probe and the paid request are sent with. -/
structure SentInit where
  method : JsString
  headers : Headers
  /-- `"manual"`: a redirect could lead the paid request to another origin. -/
  redirect : JsString
  body : Option JsValue
  others : List (JsString × JsValue)

structure NormalizedRequest where
  url : JsString
  init : SentInit

def mergedHeaders (own : Headers) (init : Option Headers) : Headers :=
  (init.getD []).foldl (fun headers p => headers.set p.1 p.2) own

/-- The values of `init` take precedence over those of a request. -/
def normalizeRequest (input : RequestInput) (init : Option RequestInit) : Throwing NormalizedRequest :=
  let given := init.bind (·.body)
  let initHeaders := init.bind (·.headers)
  let initMethod := init.bind (·.method)
  let others := (init.map (·.others)).getD []
  match input with
  | .text url =>
    .ok ⟨url, ⟨initMethod.getD "GET", mergedHeaders [] initHeaders, "manual", given, others⟩⟩
  | .request url method headers body => do
    let buffered ← match given, body with
      | none, some buffered => some <$> buffered
      | given, _ => pure given
    return ⟨url, ⟨initMethod.getD method, mergedHeaders headers initHeaders, "manual", buffered, others⟩⟩

/-! ### Reading the demand -/

def xPaymentHeader : JsString := "X-PAYMENT"
def xPaymentResponseHeader : JsString := "X-PAYMENT-RESPONSE"
def paymentRequiredHeader : JsString := "PAYMENT-REQUIRED"
def paymentSignatureHeader : JsString := "PAYMENT-SIGNATURE"
def paymentResponseHeader : JsString := "PAYMENT-RESPONSE"

def max402Bytes : ℕ := 64 * 1024
def maxPaymentRequiredHeaderChars : ℕ := 64 * 1024

/-- The loop over the chunks, `none` where the reader throws. -/
def readChunks (maxBytes : ℕ) : Bytes → Stream → Parsed (Option Bytes)
  | read, .ended => .ok (some read)
  | _, .broken => .ok none
  | read, .chunk bytes rest =>
    if maxBytes < (read ++ bytes).length then
      .error (.protocol (encode "402 body too large (> " ++ natText maxBytes ++ " bytes)"))
    else readChunks maxBytes (read ++ bytes) rest

/-- `new TextDecoder().decode(bytes)`, which drops a byte order mark. -/
def decodeText : Bytes → JsString
  | 0xEF :: 0xBB :: 0xBF :: rest => readUtf8 rest
  | bytes => readUtf8 bytes

/-- The body of an answer, read no further than the cap. A broken body reads as nothing. -/
def readBodyCapped (res : Response) (maxBytes : ℕ) : Parsed JsString :=
  match res.body with
  | none => .ok []
  | some stream => do
    match ← readChunks maxBytes [] stream with
    | none => return []
    | some bytes => return decodeText bytes

/-- The length a header declares, which counts as zero where there is none. -/
def declaredLength (web : WebPlatform) (res : Response) : Number :=
  match res.headers.get "content-length" with
  | none => 0
  | some text => web.stringToNumber text

/-- The demand of the first version, in the body of the answer. -/
def readBody (web : WebPlatform) (res : Response) : Parsed PaymentRequiredBody :=
  let declared := declaredLength web res
  if declared.isFinite && decide (((max402Bytes : ℕ) : ℤ) < declared) then
    .error (.protocol (encode "402 body too large (" ++ declared.toText ++ " bytes)"))
  else do
    let text ← readBodyCapped res max402Bytes
    parsePaymentRequired web.stack ((JsonValue.parse text).getD .null)

/-- The alphabets of both forms of base64. -/
def isHeaderUnit (u : UInt16) : Bool := isBase64Unit u || u = 45 || u = 95

/-- `/^[A-Za-z0-9+/_-]*={0,2}$/`. -/
def isCanonicalHeader (value : JsString) : Bool :=
  [[], [61], [61, 61]].contains (value.dropWhile isHeaderUnit)

def standardUnit (u : UInt16) : UInt16 := if u = 45 then 43 else if u = 95 then 47 else u

/-- The demand of the second version, in a header. -/
def parsePaymentRequiredHeader (stack : ℕ) (headerValue : JsString) : Parsed PaymentRequiredV2 :=
  if maxPaymentRequiredHeaderChars < headerValue.length then
    .error (.protocol (encode "PAYMENT-REQUIRED header too large (" ++ natText headerValue.length ++ " > " ++
      natText maxPaymentRequiredHeaderChars ++ " chars)"))
  else if !isCanonicalHeader headerValue then
    .error (.protocol (encode "PAYMENT-REQUIRED header is not canonical base64 (stray characters, or duplicate " ++
      "headers joined by the transport)"))
  else
    match JsonValue.parse (readUtf8 (ofBase64 (headerValue.map standardUnit))) with
    | none => .error (.protocol "PAYMENT-REQUIRED header is not base64-encoded JSON")
    | some parsed => parsePaymentRequiredV2 stack parsed

/-- What a server says of the settlement, where it is JSON and an object. -/
def decodeSettlementResponse (web : WebPlatform) (headerValue : Option JsString) : Option JsonValue :=
  if truthy headerValue then
    (JsonValue.parse (readUtf8 (web.decodeBase64 (headerValue.getD [])))).filter isObjectLike
  else none

/-! ### Configuration -/

/-- A trusted token. -/
structure AssetInfo where
  network : JsString
  asset : JsString
  symbol : JsString
  decimals : Number

structure X402V2Options where
  select : Option (List PaymentRequirementsV2 → Throwing (Option PaymentRequirementsV2))
  mandateIdFor : Option (PaymentRequirementsV2 → Throwing (Option JsString))
  allowPayToRoles : Option (List JsString)

structure X402FetchOptions where
  guard : VadunoGuard
  agentId : JsString
  select : Option (List PaymentRequirements → Throwing (Option PaymentRequirements))
  assets : Option (List AssetInfo)
  requireResourceOriginMatch : Option Bool
  category : Option JsString
  mandateIdFor : Option (PaymentRequirements → Throwing (Option JsString))
  /-- Whether there is an `onSettled`. -/
  notifies : Bool
  v2 : Option X402V2Options
  allowChainBlind : Bool
  allowHostOnlyMerchantPolicy : Bool

/-- The first entry with the scheme `exact`, or else the first. -/
def defaultSelect (platform : Platform) (scheme : α → JsString) (accepts : List α) : Option α :=
  (accepts.find? fun r => platform.toLowerCase (scheme r) = encode "exact").orElse fun _ => accepts.head?

def X402FetchOptions.selected (opts : X402FetchOptions) (platform : Platform) (accepts : List PaymentRequirements) :
    Throwing (Option PaymentRequirements) :=
  match opts.select with
  | some select => select accepts
  | none => .ok (defaultSelect platform (·.scheme.1) accepts)

def X402V2Options.selected (v2 : X402V2Options) (platform : Platform) (accepts : List PaymentRequirementsV2) :
    Throwing (Option PaymentRequirementsV2) :=
  match v2.select with
  | some select => select accepts
  | none => .ok (defaultSelect platform (·.scheme.1) accepts)

/-! ### The world of a call -/

/-- What the payer signs for: the very requirement that was checked, and in the second version what is beside it. -/
inductive Demand
  | v1 (requirement : PaymentRequirements)
  | v2 (requirement : PaymentRequirementsV2) (resource : ResourceInfo) (extensions : Option X402Extensions)

namespace Demand

def terms : Demand → Terms
  | v1 requirement => requirement.terms
  | v2 requirement resource _ => requirement.terms resource

/-- The header that carries what was signed. -/
def sentHeaderName : Demand → JsString
  | v1 _ => xPaymentHeader
  | v2 .. => paymentSignatureHeader

/-- The header that the settlement comes back in. -/
def settlementHeaderName : Demand → JsString
  | v1 _ => xPaymentResponseHeader
  | v2 .. => paymentResponseHeader

end Demand

/-- What the executor of one payment closes over. -/
structure Order where
  demand : Demand
  intent : X402Intent
  request : NormalizedRequest

inductive X402Op
  /-- What the guard asks for, and its policy when the gates read it. -/
  | guard (op : Op)
  | fetch (url : JsString) (init : SentInit)
  | randomUUID
  /-- `now().toISOString()`. -/
  | requestedAt
  /-- The guard is called with an intent; what it asks for comes after. -/
  | execute (order : Order)
  | pay (demand : Demand)
  | onSettled (settlement : Option JsonValue) (intentId : JsString) (auditDegraded : Bool)

@[reducible] def X402Op.Answer : X402Op → Type
  | guard op => op.Answer
  | fetch .. => Throwing Response
  | randomUUID => JsString
  | requestedAt => Throwing JsString
  | execute _ => Unit
  | pay _ => Throwing JsString
  | onSettled .. => Throwing Unit

inductive X402Error
  | parse (failure : X402Failure)
  | refused (code message : JsString)
  | blocked (result : GuardResult) (policyResult : PolicyResult)
  | failed (detail : JsString) (transmitted : Bool)
  | thrown (e : Thrown)

abbrev X402Program : Type → Type := Async X402Op.Answer X402Error

namespace X402Program

abbrev ask (op : X402Op) : X402Program op.Answer := Async.perform op

def orThrow (answered : Throwing α) : X402Program α := Async.settled (answered.mapError .thrown)

def orFail (parsed : Parsed α) : X402Program α := Async.settled (parsed.mapError .parse)

end X402Program

open X402Program

/-! ### Gates -/

/-- Mirrors the guard's own classification. -/
def isHostFormPattern (platform : Platform) (pattern : JsString) : Bool :=
  let raw := platform.trim pattern
  let lower := platform.toLowerCase raw
  if (encode "id:").isPrefixOf lower then false
  else if (encode "host:").isPrefixOf lower then true
  else raw.contains 46

section Gates
variable (web : WebPlatform) (opts : X402FetchOptions)

/-- `allow` is disjunctive, so that a host pattern in it only widens what recipients are admitted. -/
def assertRecipientGated (payTo : JsString) : X402Program Unit := do
  if opts.allowHostOnlyMerchantPolicy then return ()
  else
    let policy ← ask (.guard .policy)
    let hostForms := (policy.merchants.allow.getD []).filter (isHostFormPattern web.toPlatform)
    if hostForms = [] then return ()
    else throw (.refused "RECIPIENT_UNGATED" (encode "refusing to pay " ++ quote payTo ++
      ": policy.merchants.allow contains host-form pattern(s) " ++ "[" ++ joinComma (hostForms.map quote) ++ "]" ++
      ". On x402 the recipient is decoupled from the resource host — payTo is what the authorization commits to — " ++
      "and `allow` is disjunctive, so a host pattern only widens the recipient constraint: this policy admits " ++
      "payment to ANY address an allowlisted host names. Constrain the recipient with `id:<payTo>` entries (host " ++
      "patterns belong in `merchants.block`, where matching always denies), or pass " ++
      "`allowHostOnlyMerchantPolicy: true` to accept host-based allowlisting explicitly"))

/-- Something has to name the chains that payments settle on; a list of what is blocked does not. -/
def assertChainGated (network : JsString) : X402Program Unit := do
  if opts.allowChainBlind || opts.assets.isSome then return ()
  else
    let policy ← ask (.guard .policy)
    if policy.networks.allow.isSome then return ()
    else throw (.refused "NETWORK_UNGATED" (encode "refusing to pay on network " ++ quote network ++
      ": nothing in this deployment positively constrains the settlement chain (no trusted asset registry, no " ++
      "policy.networks.allow list — a networks.block list alone does not count, because every chain it does not " ++
      "name still passes). Configure an `assets` registry (recommended — it also pins the token), add a " ++
      "`networks.allow` list to the policy, or pass `allowChainBlind: true` to accept any chain explicitly"))

def originText (origin : Option JsString) : JsString := origin.getD "null"

/-- The origin the server claims has to be the one that is contacted; `claim` says where it is claimed. -/
def assertSameOrigin (claim claimed actual : JsString) : X402Program Unit :=
  if opts.requireResourceOriginMatch.getD true &&
      ((web.origin claimed).isNone || (web.origin actual).isNone || web.origin claimed ≠ web.origin actual) then
    throw (.refused "RESOURCE_ORIGIN_MISMATCH" (claim ++ " origin (" ++ originText (web.origin claimed) ++
      ") != request origin (" ++ originText (web.origin actual) ++ ")"))
  else return ()

/-- The registry's symbol for the token that is asked for. -/
def trustedSymbol (trusts : AssetInfo → Bool) (terms : Terms) : X402Program (Option JsString) :=
  match opts.assets with
  | none => return none
  | some assets =>
    match assets.find? trusts with
    | none => throw (.refused "ASSET_NOT_ALLOWED" (encode "token " ++ terms.asset ++ " on " ++ terms.network ++
        " is not in the trusted asset registry"))
    | some found => return some found.symbol

/-- Names of the first version are compared without case. -/
def trusts (terms : Terms) (a : AssetInfo) : Bool :=
  web.toLowerCase a.network = web.toLowerCase terms.network && web.toLowerCase a.asset = web.toLowerCase terms.asset

/-- Ids of the second version are compared as they are, but for the hexadecimal addresses of one kind of chain. -/
def trustsV2 (terms : Terms) (a : AssetInfo) : Bool :=
  a.network = terms.network &&
    if (encode "eip155:").isPrefixOf terms.network then web.toLowerCase a.asset = web.toLowerCase terms.asset
    else a.asset = terms.asset

/-- `/^[a-z]{1,16}$/`: no address on any chain, but a role that somebody else resolves. -/
def isPayToRole (payTo : JsString) : Bool :=
  decide (1 ≤ payTo.length ∧ payTo.length ≤ 16) && payTo.all fun u => 97 ≤ u && u ≤ 122

def assertNoRole (v2 : X402V2Options) (payTo : JsString) : X402Program Unit :=
  if isPayToRole payTo && !(v2.allowPayToRoles.getD []).contains payTo then
    throw (.refused "PAYTO_ROLE_REFUSED" (encode "payTo " ++ quote payTo ++ " looks like a v2 role constant, not a " ++
      "recipient address; list it in v2.allowPayToRoles to accept it explicitly"))
  else return ()

end Gates

/-! ### The payment -/

section Payment
variable (web : WebPlatform) (opts : X402FetchOptions)

/-- The answer to the paid request. -/
structure Paid where
  response : Response
  settlement : Option JsonValue

/-- The request again, with what was signed. Whatever its status, it counts as paid. -/
def sendPaid (order : Order) (value : JsString) : X402Program (Throwing JsValue × Option Paid) := do
  let headers := order.request.init.headers.set order.demand.sentHeaderName value
  match ← ask (.fetch order.request.url { order.request.init with headers := headers }) with
  | .error e => return (.error e, none)
  | .ok paid =>
    let settlement := decodeSettlementResponse web (paid.headers.get order.demand.settlementHeaderName)
    return (.ok .undefined, some ⟨paid, settlement⟩)

/-- What was signed may be no header, which is then not sent. -/
def sendSigned (order : Order) (paymentHeader : JsString) : X402Program (Throwing JsValue × Option Paid) :=
  match web.headerValue paymentHeader with
  | none => return (.error .typeError, none)
  | some value => sendPaid web order value

/-- The executor. A response is no value of the guard's, which passes on what it got: it is kept beside. -/
def executor (order : Order) : X402Program (Throwing JsValue × Option Paid) := do
  match ← ask (.pay order.demand) with
  | .error e => return (.error e, none)
  | .ok paymentHeader => sendSigned web order paymentHeader

/-- The guard's operations are its own, but that its executor is this one. -/
def served (order : Order) (kept : Option Paid) : (op : Op) → X402Program (op.Answer × Option Paid)
  | .runExecutor _ => executor web order
  | op => do return (← ask (.guard op), kept)

/-- `opts.onSettled?.(settlement, intentId, auditDegraded)`, of which nothing is caught. -/
def notify (order : Order) (settlement : Option JsonValue) (auditDegraded : Bool) : X402Program Unit := do
  if opts.notifies then
    let notified ← ask (.onSettled settlement order.intent.payment.id auditDegraded)
    orThrow notified
  else return ()

/-- The answer to a paid request, or the error that tells of it. -/
def passOn (order : Order) (response : Response) : X402Program Response :=
  if response.ok then return response
  else throw (.failed (encode "server returned " ++ natText response.status ++ " after " ++
    order.demand.sentHeaderName ++ " was sent (spend counted; funds may have settled)") true)

/-- What a verdict of the guard becomes. -/
def finishGuardResult (order : Order) (paid : Option Paid) : GuardResult → X402Program Response
  | .executed _ _ _ auditDegraded =>
    match paid with
    | none => throw (.thrown .typeError)
    | some paid => do
      notify opts order paid.settlement auditDegraded
      passOn order paid.response
  | .denied intentId policyResult => throw (.blocked (.denied intentId policyResult) policyResult)
  | .approvalRejected intentId policyResult => throw (.blocked (.approvalRejected intentId policyResult) policyResult)
  | .replayed _ _ original => throw (.failed (encode "intent id was already consumed under this mandate (original: " ++
      (match original.status with | .executed => "executed" | .failed => "failed" | .unresolved => "unresolved") ++
      "); no new payment was made") false)
  | .authorized .. => throw (.failed
      "guard returned a two-phase authorization to a single-call path; nothing was signed" false)
  | .failed _ _ error => throw (.failed error false)

/-- `guard.execute(intent, executor)`, and what becomes of its result. -/
def charge (order : Order) : X402Program Response := do
  ask (.execute order)
  let (result, paid) ←
    (opts.guard.submit web.toPlatform .execute order.intent.submitted).carry (served web order) none
  finishGuardResult opts order paid (← orThrow result)

/-- The intent's own fields, in the order in which they are found. -/
def intentOptions (requestUrl : JsString) (currency : Option JsString) (mandateId : Throwing (Option JsString)) :
    X402Program RequirementToIntentOptions := do
  let intentId ← ask .randomUUID
  let mandateId ← orThrow mandateId
  let requestedAt ← orThrow (← ask .requestedAt)
  return { agentId := opts.agentId, intentId, requestUrl, currency, category := opts.category, mandateId, requestedAt }

def noRequirementSelected : X402Error :=
  .refused "NO_REQUIREMENT_SELECTED" "no acceptable payment requirement was selected"

/-- The payment path of the first version. -/
def payV1 (request : NormalizedRequest) (first : Response) : X402Program Response := do
  let parsed ← orFail (readBody web first)
  match ← orThrow (opts.selected web.toPlatform parsed.accepts.items) with
  | none => throw noRequirementSelected
  | some requirement =>
    assertChainGated opts requirement.network.1
    assertRecipientGated web opts requirement.payTo.1
    assertSameOrigin web opts "requirement.resource" requirement.resource.1 request.url
    let currency ← trustedSymbol opts (trusts web requirement.terms) requirement.terms
    let fields ← intentOptions opts request.url currency
      ((opts.mandateIdFor.map fun mandateIdFor => mandateIdFor requirement).getD (.ok none))
    charge web opts ⟨.v1 requirement, requirementToIntent web.toPlatform requirement fields, request⟩

/-- The payment path of the second version. -/
def payV2 (request : NormalizedRequest) (v2Header : JsString) : X402Program Response := do
  match opts.v2 with
  | none => throw (.refused "V2_NOT_CONFIGURED" (encode "server speaks x402 v2 (PAYMENT-REQUIRED header present) " ++
      "but no v2 payer is configured — pass the `v2` option to createX402Fetch to enable v2 payments"))
  | some v2 =>
    let parsed ← orFail (parsePaymentRequiredHeader web.stack v2Header)
    match ← orThrow (v2.selected web.toPlatform parsed.accepts.items) with
    | none => throw noRequirementSelected
    | some requirement =>
      let terms := requirement.terms parsed.resource
      assertChainGated opts requirement.network.1
      assertRecipientGated web opts requirement.payTo.1
      assertNoRole v2 requirement.payTo.1
      assertSameOrigin web opts "resource.url" parsed.resource.url.1 request.url
      let currency ← trustedSymbol opts (trustsV2 web terms) terms
      let fields ← intentOptions opts request.url currency
        ((v2.mandateIdFor.map fun mandateIdFor => mandateIdFor requirement).getD (.ok none))
      charge web opts ⟨.v2 requirement parsed.resource parsed.extensions,
        requirementToIntentV2 web.toPlatform requirement parsed.resource fields, request⟩

/-- The header is what tells the second version: the body is then cancelled and never read. -/
def x402Fetch (input : RequestInput) (init : Option RequestInit) : X402Program Response := do
  let request ← orThrow (normalizeRequest input init)
  let first ← orThrow (← ask (.fetch request.url request.init))
  if first.status ≠ 402 then return first
  else
    match first.headers.get paymentRequiredHeader with
    | some v2Header => payV2 web opts request v2Header
    | none => payV1 web opts request first

end Payment
end Vaduno.X402
