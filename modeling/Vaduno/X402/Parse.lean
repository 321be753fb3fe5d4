import Vaduno.Ecma.JsonCopy

/-! The two parsers of payment requirements: the body of a 402 answer in the first version, and the payload of the
PAYMENT-REQUIRED header in the second. What they read is JSON; an object's properties are listed in its own order.
How deep the stack lets `JSON.stringify` nest is a parameter. -/
namespace Vaduno.X402
open Ecma

inductive X402Failure
  /-- `X402ProtocolError`. -/
  | protocol (detail : JsString)
  /-- `X402VersionUnsupportedError`. -/
  | versionUnsupported (detectedVersion : Number) (detail : JsString)
  /-- Anything else that is thrown. -/
  | thrown (e : Thrown)

/-- The message of the error that is thrown. -/
def X402Failure.message : X402Failure → Throwing JsString
  | protocol detail => .ok (encode "x402 protocol: " ++ detail)
  | versionUnsupported detectedVersion detail =>
    .ok <| if detectedVersion = 2 then
      encode "x402 v2 is not supported on this carrier by @vaduno/x402 (v2 PaymentRequired travels " ++
        "in the PAYMENT-REQUIRED response header, which this adapter handles when the " ++
        "`v2` option is configured): " ++ detail ++ ". No payment was attempted."
    else
      encode "x402 v" ++ detectedVersion.toText ++ " is not supported by @vaduno/x402 (this adapter implements " ++
        "v1 and v2): " ++ detail ++ ". No payment was attempted. " ++
        "Track https://github.com/premsreelathasugeendran/vaduno/issues for newer versions."
  | thrown e => errText e

abbrev Parsed := Except X402Failure

/-! ### Versions -/

/-- Every `x402Version` is one of these. -/
inductive VersionClass
  | absent
  | v1
  | v2
  | future (version : Number)
  | invalid (description : JsString)

/-- `typeof v`. -/
def typeOf : JsonValue → JsString
  | .boolean _ => "boolean"
  | .number _ | .negZero => "number"
  | .string _ => "string"
  | .null | .array _ | .object _ => "object"

def classifyX402Version : Option JsonValue → VersionClass
  | none => .absent
  | some (.number n) =>
    if n.isInteger then
      if n = 1 then .v1
      else if n = 2 then .v2
      else if 2 < n then .future n
      else .invalid (encode "the integer " ++ n.toText)
    else .invalid (encode "the non-integer number " ++ n.toText)
  | some .negZero => .invalid "the integer 0"
  | some (.string s) => .invalid (encode "the string " ++ quote s)
  | some .null => .invalid "null"
  | some (.array _) => .invalid "an array"
  | some v => .invalid (encode "a " ++ typeOf v)

/-! ### Fields -/

abbrev NonEmpty := { s : JsString // s ≠ [] }

abbrev JsonNumber := { v : JsonValue // typeOf v = encode "number" }

/-- Truthy and of type `object`. -/
def isObjectLike : JsonValue → Bool
  | .array _ | .object _ => true
  | _ => false

/-- And not an array either. -/
def isPlainObject : JsonValue → Bool
  | .object _ => true
  | _ => false

def entryPath (index : ℕ) : JsString := encode "accepts[" ++ natText index ++ "]"

/-- A field that must be a non-empty string. -/
def str (index : ℕ) (o : JsonValue) (k : JsString) : Parsed NonEmpty :=
  let missing := .error (.protocol (entryPath index ++ "." ++ k ++ " must be a non-empty string"))
  match o.get k with
  | some (.string s) => if empty : s = [] then missing else .ok ⟨s, empty⟩
  | _ => missing

/-- A field that counts only as a number. -/
def numberField (o : JsonValue) (k : JsString) : Option JsonNumber :=
  match o.get k with
  | some (.number n) => some ⟨.number n, rfl⟩
  | some .negZero => some ⟨.negZero, rfl⟩
  | _ => none

def extraTexts : List JsString := ["name", "version", "symbol"]

def textOrAbsent (o : JsonValue) (k : JsString) : Bool :=
  match o.get k with
  | none | some (.string _) => true
  | _ => false

def decimalsOrAbsent (o : JsonValue) : Bool :=
  match o.get "decimals" with
  | none | some .negZero => true
  | some (.number n) => n.isInteger && !decide (n < 0) && !decide (255 < n)
  | _ => false

/-- The metadata of a token. Only the keys that are read here are of a known type; others are kept. -/
structure Extra where
  props : List (JsString × JsonValue)
  texts : ∀ k ∈ extraTexts, textOrAbsent (.object props) k = true
  decimals : decimalsOrAbsent (.object props) = true

section Stack
variable (stack : ℕ)

def validateExtra (raw : JsonValue) (index : ℕ) : Parsed Extra :=
  let fail (detail : JsString) : Parsed Extra := .error (.protocol (entryPath index ++ ".extra" ++ detail))
  if !isPlainObject raw then fail " must be an object"
  else
    match raw.copyWithin stack with
    | none => fail " is not JSON-representable"
    | some (.object props) =>
      match untyped : extraTexts.find? fun k => !textOrAbsent (.object props) k with
      | some k => fail (encode "." ++ k ++ " must be a string")
      | none =>
        if decimals : decimalsOrAbsent (.object props) then
          .ok ⟨props, fun k listed => by simpa using List.find?_eq_none.mp untyped k listed, decimals⟩
        else fail ".decimals must be an integer in [0, 255]"
    | some _ => fail " must be an object"

/-- `null` is a common idiom for no metadata. -/
def extraField (o : JsonValue) (index : ℕ) : Parsed (Option Extra) :=
  match o.get "extra" with
  | none | some .null => .ok none
  | some raw => some <$> validateExtra stack raw index

/-- `raw.map((r, i) => validate(r, i))`. -/
def validateAll (validate : JsonValue → ℕ → Parsed α) : ℕ → (raw : List JsonValue) →
    Parsed { items : List α // items.length = raw.length }
  | _, [] => .ok ⟨[], rfl⟩
  | index, r :: rest => do
    let item ← validate r index
    let items ← validateAll validate (index + 1) rest
    return ⟨item :: items.1, congrArg (· + 1) items.2⟩

/-- Between one and thirty-two entries. -/
structure Accepts (α : Type) where
  items : List α
  nonempty : items ≠ []
  bounded : items.length ≤ 32

/-- The entries of `accepts`, where they are a list of a fitting length; `carrier` is how messages call it. -/
def acceptsField (carrier : JsString) (validate : JsonValue → ℕ → Parsed α) (b : JsonValue) : Parsed (Accepts α) :=
  match b.get "accepts" with
  | some (.array raw) =>
    if long : 32 < raw.length then
      .error (.protocol (carrier ++ " has too many accepts entries (" ++ natText raw.length ++ " > 32)"))
    else do
      let items ← validateAll validate 0 raw
      if empty : items.1 = [] then throw (.protocol (carrier ++ " `accepts` is empty"))
      else return ⟨items.1, empty, items.2.le.trans (not_lt.mp long)⟩
  | _ => .error (.protocol (carrier ++ " has no `accepts` array"))

/-! ### The first version -/

structure PaymentRequirements where
  scheme : NonEmpty
  network : NonEmpty
  maxAmountRequired : NonEmpty
  resource : NonEmpty
  payTo : NonEmpty
  asset : NonEmpty
  description : Option JsString
  mimeType : Option JsString
  maxTimeoutSeconds : Option JsonNumber
  extra : Option Extra

structure PaymentRequiredBody where
  accepts : Accepts PaymentRequirements
  error : Option JsString

def validateRequirement (r : JsonValue) (index : ℕ) : Parsed PaymentRequirements :=
  if !isObjectLike r then .error (.protocol (entryPath index ++ " is not an object"))
  else do
    let scheme ← str index r "scheme"
    let network ← str index r "network"
    let maxAmountRequired ← str index r "maxAmountRequired"
    let resource ← str index r "resource"
    let payTo ← str index r "payTo"
    let asset ← str index r "asset"
    let extra ← extraField stack r index
    return { scheme, network, maxAmountRequired, resource, payTo, asset
             description := JsonValue.optionalText (r.get "description")
             mimeType := JsonValue.optionalText (r.get "mimeType")
             maxTimeoutSeconds := numberField r "maxTimeoutSeconds"
             extra }

/-- The first entry that has the amount of the second version and not that of the first. -/
def detectV2Entry : ℕ → List JsonValue → Option JsString
  | _, [] => none
  | index, r :: rest =>
    match r.get "maxAmountRequired", r.get "amount" with
    | none, some amount => some (entryPath index ++ " carries `amount` (" ++ typeOf amount ++
        ") and no `maxAmountRequired` (renamed in v2)")
    | _, _ => detectV2Entry (index + 1) rest

/-- Data of the second version that does not say so. -/
def detectV2Shape (b : JsonValue) : Option JsString :=
  if (b.get "resource").any isObjectLike then
    some "body carries a top-level `resource` object (v2's ResourceInfo; v1 has no top-level resource)"
  else
    match b.get "accepts" with
    | some (.array accepts) => detectV2Entry 0 accepts
    | _ => none

/-- The fields of a body whose version may be the first. -/
def parseBody (b : JsonValue) : Parsed PaymentRequiredBody :=
  match detectV2Shape b with
  | some detected => .error (.versionUnsupported 2 detected)
  | none => do
    let accepts ← acceptsField "402 body" (validateRequirement stack) b
    return ⟨accepts, JsonValue.optionalText (b.get "error")⟩

def parsePaymentRequired (body : JsonValue) : Parsed PaymentRequiredBody :=
  if !isObjectLike body then .error (.protocol "402 body is not an object")
  else
    match classifyX402Version (body.get "x402Version") with
    | .invalid description =>
      .error (.protocol (encode "x402Version must be the integer 1 on the 402-body carrier; got " ++ description ++
        ". A non-v1 declaration is refused, never coerced to 1"))
    | .v2 =>
      .error (.versionUnsupported 2 (encode "the 402 JSON body declares x402Version 2, but v2 delivers " ++
        "PaymentRequired in the PAYMENT-REQUIRED response header and this body carrier is v1-only — refusing the " ++
        "mixed carrier rather than guessing which protocol the server means"))
    | .future version =>
      .error (.versionUnsupported version (encode "body declares x402Version " ++ version.toText))
    | .absent | .v1 => parseBody stack body

/-! ### The second version -/

/-- The units of a chain's namespace and of its reference. -/
def isNamespaceUnit (u : UInt16) : Bool := u = 45 || (97 ≤ u && u ≤ 122) || (48 ≤ u && u ≤ 57)
def isReferenceUnit (u : UInt16) : Bool := isNamespaceUnit u || u = 95 || (65 ≤ u && u ≤ 90)

/-- `/^[-a-z0-9]{3,8}:[-_a-zA-Z0-9]{1,32}$/`. -/
def isChainId (network : JsString) : Bool :=
  let (ns, reference) := cut 58 network
  network.contains 58 && decide (3 ≤ ns.length ∧ ns.length ≤ 8) && ns.all isNamespaceUnit &&
    decide (1 ≤ reference.length ∧ reference.length ≤ 32) && reference.all isReferenceUnit

structure ResourceInfo where
  url : NonEmpty
  description : Option JsString
  mimeType : Option JsString

structure PaymentRequirementsV2 where
  scheme : NonEmpty
  network : { s : JsString // isChainId s = true }
  amount : NonEmpty
  payTo : NonEmpty
  asset : NonEmpty
  maxTimeoutSeconds : { n : Number // n.isFinite = true ∧ 0 < n }
  extra : Option Extra

/-- A field that is a string when it is present. -/
def textField (o : JsonValue) (k : JsString) : Parsed (Option JsString) :=
  match o.get k with
  | none => .ok none
  | some (.string s) => .ok (some s)
  | some _ => .error (.protocol (encode "resource." ++ k ++ " must be a string when present"))

def urlField (o : JsonValue) : Parsed NonEmpty :=
  let missing := .error (.protocol "resource.url must be a non-empty string")
  match o.get "url" with
  | some (.string s) => if empty : s = [] then missing else .ok ⟨s, empty⟩
  | _ => missing

def validateResourceInfo (raw : Option JsonValue) : Parsed ResourceInfo :=
  match raw with
  | some (.object props) => do
    let url ← urlField (.object props)
    let description ← textField (.object props) "description"
    let mimeType ← textField (.object props) "mimeType"
    return { url, description, mimeType }
  | _ => .error (.protocol
      "PAYMENT-REQUIRED payload `resource` must be a ResourceInfo object (required in v2)")

def chainField (o : JsonValue) (index : ℕ) : Parsed { s : JsString // isChainId s = true } := do
  let network ← str index o "network"
  if caip2 : isChainId network.1 then return ⟨network.1, caip2⟩
  else throw (.protocol (entryPath index ++ ".network must be a CAIP-2 chain id (namespace:reference, " ++
    "e.g. \"eip155:8453\"); got " ++ quote network.1))

def timeoutField (o : JsonValue) (index : ℕ) : Parsed { n : Number // n.isFinite = true ∧ 0 < n } :=
  let missing := .error (.protocol (entryPath index ++
    ".maxTimeoutSeconds must be a positive number (required in v2)"))
  match o.get "maxTimeoutSeconds" with
  | some (.number n) => if positive : n.isFinite = true ∧ 0 < n then .ok ⟨n, positive⟩ else missing
  | _ => missing

def validateRequirementV2 (r : JsonValue) (index : ℕ) : Parsed PaymentRequirementsV2 :=
  if !isPlainObject r then .error (.protocol (entryPath index ++ " is not an object"))
  else if (r.get "maxAmountRequired").isSome then
    .error (.protocol (entryPath index ++ " carries v1 `maxAmountRequired` in a v2 requirement — " ++
      "mixed-version money fields are refused (v2 names the amount `amount`)"))
  else if (r.get "resource").isSome then
    .error (.protocol (entryPath index ++ " carries a per-requirement `resource` in a v2 requirement — " ++
      "mixed-version binding fields are refused (v2 moved resource to the top level)"))
  else do
    let network ← chainField r index
    let maxTimeoutSeconds ← timeoutField r index
    let scheme ← str index r "scheme"
    let amount ← str index r "amount"
    let payTo ← str index r "payTo"
    let asset ← str index r "asset"
    let extra ← extraField stack r index
    return { scheme, network, amount, payTo, asset, maxTimeoutSeconds, extra }

def maxExtensions : ℕ := 16
def maxExtensionIdChars : ℕ := 128
def maxExtensionsJsonChars : ℕ := 32 * 1024

def prototypeSlots : List JsString := ["__proto__", "constructor", "prototype"]

/-- What is wrong with an extension under its id. -/
def extensionProblem : JsString × JsonValue → Option JsString
  | (id, value) =>
    if id = [] ∨ maxExtensionIdChars < id.length then
      some (encode "extension id length must be 1.." ++ natText maxExtensionIdChars ++ " chars")
    else if id ∈ prototypeSlots then
      some (encode "extension id " ++ quote id ++
        " is refused: it names an object-prototype slot rather than an extension")
    else if !isPlainObject value then some (encode "extensions[" ++ quote id ++ "] must be an object")
    else
      (["info", "schema"].find? fun k => !(value.get k).any isPlainObject).map fun k =>
        encode "extensions[" ++ quote id ++ "]." ++ k ++ " must be an object (required)"

structure X402Extensions where
  entries : List (JsString × JsonValue)
  few : entries.length ≤ maxExtensions
  valid : ∀ entry ∈ entries, extensionProblem entry = none

def validateExtensions (raw : JsonValue) : Parsed X402Extensions :=
  let fail (detail : JsString) : Parsed X402Extensions := .error (.protocol detail)
  if !isPlainObject raw then fail "PAYMENT-REQUIRED payload `extensions` must be an object"
  else
    match raw.stringifyWithin stack with
    | none => fail "`extensions` is not JSON-representable"
    | some serialized =>
      if maxExtensionsJsonChars < serialized.length then
        fail (encode "`extensions` too large (> " ++ natText maxExtensionsJsonChars ++ " JSON chars)")
      else
        -- this one is not caught
        match JsonValue.parse serialized with
        | none => .error (.thrown (.error "SyntaxError"))
        | some (.object entries) =>
          if many : maxExtensions < entries.length then
            fail (encode "too many extensions (" ++ natText entries.length ++ " > " ++ natText maxExtensions ++ ")")
          else
            match problem : entries.findSome? extensionProblem with
            | some detail => fail detail
            | none => .ok ⟨entries, not_lt.mp many, List.findSome?_eq_none_iff.mp problem⟩
        | some _ => fail "`extensions` must be an object"

def extensionsField (b : JsonValue) : Parsed (Option X402Extensions) :=
  match b.get "extensions" with
  | none | some .null => .ok none
  | some raw => some <$> validateExtensions stack raw

structure PaymentRequiredV2 where
  resource : ResourceInfo
  accepts : Accepts PaymentRequirementsV2
  error : Option JsString
  extensions : Option X402Extensions

/-- The fields of a payload whose version is the second. -/
def parsePayload (b : JsonValue) : Parsed PaymentRequiredV2 := do
  let resource ← validateResourceInfo (b.get "resource")
  let accepts ← acceptsField "PAYMENT-REQUIRED payload" (validateRequirementV2 stack) b
  let extensions ← extensionsField stack b
  return { resource, accepts, error := JsonValue.optionalText (b.get "error"), extensions }

def parsePaymentRequiredV2 (body : JsonValue) : Parsed PaymentRequiredV2 :=
  if !isPlainObject body then .error (.protocol "PAYMENT-REQUIRED payload is not an object")
  else
    match classifyX402Version (body.get "x402Version") with
    | .v2 => parsePayload stack body
    | .absent =>
      .error (.protocol "PAYMENT-REQUIRED payload has no x402Version; v2 requires the integer 2")
    | .v1 =>
      .error (.protocol (encode "PAYMENT-REQUIRED payload declares x402Version 1 — the v2 header carrier with a v1 " ++
        "declaration is version confusion, refused"))
    | .future version =>
      .error (.versionUnsupported version (encode "PAYMENT-REQUIRED payload declares x402Version " ++ version.toText))
    | .invalid description =>
      .error (.protocol (encode "PAYMENT-REQUIRED payload's x402Version must be the integer 2; got " ++ description))

end Stack
end Vaduno.X402
