import Mathlib.Data.List.DropRight
import Vaduno.Async.Program
import Vaduno.Cloudflare.CommittedFields
import Vaduno.Ecma.Hex
import Vaduno.Ecma.JsonParse
import Vaduno.Ecma.Utf8
import Vaduno.Mandate.Pq

/-! The signer that asks the guard before it signs typed data. What is read of a request is its snapshot,
and the snapshot is what is signed. The packages that hash and encode are `Viem`; the metadata of the intents,
which no policy reads, is left out. -/
namespace Vaduno.Cloudflare
open Ecma
open Policy (member)

/-! ### Reading values -/

/-- `/^0x[0-9a-fA-F]{n}$/`. -/
def isHexText (length : ℕ) : JsString → Bool
  | 48 :: 120 :: digits => decide (digits.length = length) && digits.all fun u => isHexUnit u || (65 ≤ u && u < 71)
  | _ => false

/-- Accept bigint, an integer number, or a decimal string; anything else is `none`. -/
def asBigInt : JsValue → Option ℤ
  | .bigint n => some n
  | .number n => if n.isSafeInteger then some n.toInt else none
  | .string s => if isDigits s then some (digitsValue s) else none
  | _ => none

def maxSafeInteger : ℤ := 2 ^ 53 - 1

def asChainId (v : JsValue) : Option ℤ := (asBigInt v).filter fun b => !(decide (b < 0) || decide (maxSafeInteger < b))

/-- The value of a digit in a base of up to sixteen. -/
def digitValue (u : UInt16) : ℕ :=
  if u < 58 then u.toNat - 48 else if u < 71 then u.toNat - 55 else u.toNat - 87

def isDigitBelow (base : ℕ) (u : UInt16) : Bool :=
  (isHexUnit u || (65 ≤ u && u < 71)) && decide (digitValue u < base)

/-- The value of a text of digits in a base. -/
def readRadix (base : ℕ) (digits : JsString) : Option ℤ :=
  if !digits.isEmpty && digits.all (isDigitBelow base) then
    some (digits.foldl (fun value u => base * value + digitValue u) 0 : ℕ)
  else none

/-- `StringToBigInt`: white space around the literal does not count, and no literal at all is zero. -/
def stringToBigInt (text : JsString) : Option ℤ :=
  match (text.dropWhile Mandate.isSpaceUnit).rdropWhile Mandate.isSpaceUnit with
  | [] => some 0
  | 48 :: 120 :: digits | 48 :: 88 :: digits => readRadix 16 digits
  | 48 :: 111 :: digits | 48 :: 79 :: digits => readRadix 8 digits
  | 48 :: 98 :: digits | 48 :: 66 :: digits => readRadix 2 digits
  | 43 :: digits => readRadix 10 digits
  | 45 :: digits => (readRadix 10 digits).map (-·)
  | digits => readRadix 10 digits

/-- `BigInt(v)`. -/
def toBigInt : JsValue → Throwing ℤ
  | .bigint n => .ok n
  | .number n => if n.isInteger then .ok n.toInt else .error (.error "RangeError")
  | .boolean b => .ok (if b then 1 else 0)
  | .undefined | .null | .symbol => .error .typeError
  | v => do
    match stringToBigInt (← v.toText) with
    | some n => return n
    | none => throw (.error "SyntaxError")

/-- `typeof v`. -/
def typeOf : JsValue → JsString
  | .undefined => "undefined"
  | .null | .array _ | .object _ => "object"
  | .boolean _ => "boolean"
  | .number _ => "number"
  | .bigint _ => "bigint"
  | .string _ => "string"
  | .symbol => "symbol"
  | .foreign none _ _ => "function"
  | .foreign (some _) _ _ => "object"

/-- A value of an ABI parameter, as it is handed to the encoder. -/
inductive AbiValue
  | text (s : JsString)
  | number (n : Number)
  | bigint (n : ℤ)

/-- What the installed package for typed data provides. -/
structure Viem where
  hashTypedData : TypedDataRequest → Throwing JsString
  getTypesForEIP712Domain : JsValue → Throwing (List TypeField)
  getAddress : JsString → Throwing JsString
  /-- `encodeAbiParameters`, over pairs of a type and a value. -/
  encodeAbiParameters : List (JsString × AbiValue) → Throwing Bytes
  keccak256 : Bytes → JsString
  /-- The integer that a value of a `uint256` field is encoded as, if it is encoded. -/
  encodeUint256 : JsValue → Option ℤ

/-! ### What a request commits to -/

abbrev RequiredField := JsString × JsString

/-- `find((f) => f && f.name === name)`. -/
def findField (fields : List JsValue) (name : JsString) : Option JsValue :=
  fields.find? fun f => match member "name" f with
    | .string s => decide (s = name)
    | _ => false

/-- The first required field that a struct does not declare with its type. -/
def missingOf (structName : JsString) (fields : List JsValue) : List RequiredField → Throwing (Option JsString)
  | [] => .ok none
  | (name, type) :: rest =>
    match findField fields name with
    | none => .ok (some (encode "types." ++ structName ++ " does not declare \"" ++ name ++
        "\", so the signature does not commit to it"))
    | some field => do
      if (← (member "type" field).stringOf) ≠ type then
        return some (encode "types." ++ structName ++ "." ++ name ++ " is declared \"" ++
          (← (member "type" field).toText) ++ "\", expected \"" ++ type ++ "\"")
      else missingOf structName fields rest

def missingCommitment (types : List (JsString × JsValue)) (structName : JsString) (required : List RequiredField) :
    Throwing (Option JsString) :=
  match declaration types structName with
  | none => .ok (some (encode "types." ++ structName ++ " is not declared, so the signed struct is unknown"))
  | some fields => missingOf structName fields required

/-- The first needed field that the domain does not commit to. -/
def missingOfDomain (typed : TypedDataRequest) (declared : List TypeField) : List RequiredField → Option JsString
  | [] => none
  | (name, type) :: rest =>
    match declared.find? (·.name = name) with
    | none =>
      if (declaration typed.types "EIP712Domain").isSome then
        some (encode "types.EIP712Domain omits \"" ++ name ++
          "\", so the signature does not commit to it (the same bytes would be valid with a different one)")
      else
        some (encode "domain." ++ name ++
          " is present and is policed, but viem's INFERRED EIP712Domain does not include it for a value of type \"" ++
          typeOf (member name typed.domain) ++ "\", so the signature does not commit to it " ++
          "(the same bytes would be valid with a different one). " ++
          (if name = "chainId" then
            encode "Pass chainId as a number or a bigint, or declare types.EIP712Domain explicitly."
          else "Declare types.EIP712Domain explicitly."))
    | some field =>
      if field.type ≠ type then
        some (encode "types.EIP712Domain." ++ name ++ " is declared \"" ++ field.type ++ "\", expected \"" ++ type ++
          "\"")
      else missingOfDomain typed declared rest

section Extract
variable (platform : Platform) (viem : Viem)

def missingDomainCommitment (typed : TypedDataRequest) (needed : List RequiredField) : Throwing (Option JsString) :=
  match committedDomainFields viem.getTypesForEIP712Domain typed with
  | .ok declared => .ok (missingOfDomain typed declared needed)
  | .error err => return some (encode "the EIP-712 domain type could not be derived, so which domain fields " ++
      "the signature commits to is unknown (" ++ (← errText err) ++ ")")

def normAddress : JsValue → Option JsString
  | .string s => if isHexText 40 s then some (platform.toLowerCase s) else none
  | _ => none

def eip3009Required : List RequiredField :=
  [("from", "address"), ("to", "address"), ("value", "uint256"), ("validAfter", "uint256"),
    ("validBefore", "uint256"), ("nonce", "bytes32")]

def domainRequired : List RequiredField := [("chainId", "uint256"), ("verifyingContract", "address")]

inductive PaymentKind
  | eip3009
  | permit2
  deriving DecidableEq

structure ExtractedPayment where
  kind : PaymentKind
  primaryType : JsString
  chainId : ℤ
  asset : JsString
  payer : Option JsString
  payee : JsString
  nonce : JsString
  uncommitted : Option JsString
  validAfter : Option ℤ
  value : Option ℤ
  validBefore : Option ℤ
  /-- A payee or spender that is a known token collector. -/
  collector : Option JsString
  /-- The address that a Permit2 signature empowers. -/
  spender : Option JsString

/-- `a ?? b` over results that may throw. -/
def orElse (first : Throwing (Option JsString)) (second : Throwing (Option JsString)) : Throwing (Option JsString) := do
  match ← first with
  | some message => return some message
  | none => second

def bytes32 : JsValue → Option JsString
  | .string s => if isHexText 64 s then some (platform.toLowerCase s) else none
  | _ => none

def extractEip3009 (typed : TypedDataRequest) (collectors : List JsString) (primaryType : JsString) :
    Throwing (Option ExtractedPayment) :=
  let message := typed.message
  match asChainId (member "chainId" typed.domain), normAddress platform (member "verifyingContract" typed.domain),
    normAddress platform (member "from" message), normAddress platform (member "to" message),
    bytes32 platform (member "nonce" message) with
  | some chainId, some asset, some payer, some payee, some nonce => do
    let uncommitted ← orElse (missingDomainCommitment viem typed domainRequired)
      (missingCommitment typed.types primaryType eip3009Required)
    return some { kind := .eip3009, primaryType, chainId, asset, payer := some payer, payee, nonce, uncommitted
                  validAfter := asBigInt (member "validAfter" message)
                  value := asBigInt (member "value" message)
                  validBefore := asBigInt (member "validBefore" message)
                  collector := if payee ∈ collectors then some payee else none
                  spender := none }
  | _, _, _, _, _ => .ok none

/-- The type of the witness, whose `to` must be committed there. -/
def witnessType (types : List (JsString × JsValue)) : JsValue :=
  match (declaration types "PermitWitnessTransferFrom").bind (findField · "witness") with
  | some field => member "type" field
  | none => .undefined

def witnessCommitment (types : List (JsString × JsValue)) : Throwing (Option JsString) :=
  let undeclared : JsString := "types.PermitWitnessTransferFrom does not declare a `witness` field, so the payee " ++
    encode "read from message.witness.to is not in the signed bytes"
  match witnessType types with
  | .string name => if name.isEmpty then .ok (some undeclared) else missingCommitment types name [("to", "address")]
  | _ => .ok (some undeclared)

def permitRequired : List RequiredField :=
  [("permitted", "TokenPermissions"), ("spender", "address"), ("nonce", "uint256"), ("deadline", "uint256")]

def extractPermit2 (typed : TypedDataRequest) (collectors : List JsString) : Throwing (Option ExtractedPayment) :=
  let message := typed.message
  let permitted := member "permitted" message
  match asChainId (member "chainId" typed.domain), normAddress platform (member "token" permitted),
    normAddress platform (member "to" (member "witness" message)), asBigInt (member "nonce" message) with
  | some chainId, some asset, some payee, some nonce => do
    let uncommitted ← orElse (missingDomainCommitment viem typed domainRequired)
      (orElse (missingCommitment typed.types "PermitWitnessTransferFrom" permitRequired)
        (orElse (missingCommitment typed.types "TokenPermissions" [("token", "address"), ("amount", "uint256")])
          (witnessCommitment typed.types)))
    let spender := normAddress platform (member "spender" message)
    return some { kind := .permit2, primaryType := "PermitWitnessTransferFrom", chainId, asset
                  payer := normAddress platform (member "from" message)
                  payee, nonce := intText nonce, uncommitted, validAfter := none
                  value := asBigInt (member "amount" permitted)
                  validBefore := asBigInt (member "deadline" message)
                  collector := if spender.getD [] ∈ collectors then spender
                    else if payee ∈ collectors then some payee else none
                  spender }
  | _, _, _, _ => .ok none

/-- The payment facts of a request, if it has a shape that is understood. -/
def extractPayment (typed : TypedDataRequest) (collectors : List JsString) : Throwing (Option ExtractedPayment) :=
  match typed.primaryType with
  | .string primaryType =>
    if primaryType = "TransferWithAuthorization" ∨ primaryType = "ReceiveWithAuthorization" then
      extractEip3009 platform viem typed collectors primaryType
    else if primaryType = "PermitWitnessTransferFrom" then extractPermit2 platform viem typed collectors
    else .ok none
  | _ => .ok none

/-- The collector that a request of another shape names. -/
def collectorInUnpoliceableShape (typed : TypedDataRequest) (collectors : List JsString) : Option JsString :=
  let message := typed.message
  ([member "spender" message, member "to" message, member "to" (member "witness" message)].filterMap
    (normAddress platform)).find? (· ∈ collectors)

end Extract
/-! ### Refusals -/

structure RefusalReason where
  code : JsString
  message : JsString

inductive SignerError
  /-- `GuardSignerRefusedError`. -/
  | refused (message code : JsString) (intentId : JsString) (reasons : List RefusalReason)
  | thrown (e : Thrown)

/-- What the guard answers. -/
inductive SignerVerdict
  | authorized
  /-- With the status of the original attempt. -/
  | replayed (original : JsString)
  /-- One of `denied`, `approval_rejected` and `failed`. -/
  | refused (status : JsString) (reasons : List RefusalReason)
  /-- Any other status, as JSON. -/
  | unexpected (status : JsString)

/-- What a declaration behind a collector is asked for with. -/
structure AuthCaptureContext where
  chainId : ℤ
  token : JsString
  payer : Option JsString
  maxAmount : ℤ
  preApprovalExpiry : ℤ
  nonce : JsString
  collector : JsString

inductive SignerOp
  /-- `Date.now()`. -/
  | now
  | randomHex (byteLength : ℕ)
  | authorize (intent : PaymentIntent)
  | settle (intentId : JsString) (executed : Bool) (error : Option JsString)
  | releaseSpend (intentId : JsString)
  | resolveAuthCapture (context : AuthCaptureContext)
  /-- `account.signTypedData`. -/
  | signTypedData (typed : TypedDataRequest)

@[reducible] def SignerOp.Answer : SignerOp → Type
  | now => ℤ
  | randomHex _ => JsString
  | authorize _ => Throwing SignerVerdict
  | settle .. | releaseSpend _ => Throwing Unit
  | resolveAuthCapture _ => Throwing JsValue
  | signTypedData _ => Throwing JsString

abbrev SignerProgram : Type → Type := Async SignerOp.Answer SignerError

abbrev SignerOp.ask (op : SignerOp) : SignerProgram op.Answer := Async.perform op

def orThrown : Throwing α → SignerProgram α
  | .ok a => return a
  | .error e => throw (.thrown e)

/-- A trusted token identity. -/
structure RegistryEntry where
  chainId : ℤ
  asset : JsString
  symbol : JsString
  decimals : Number

/-- What the signer holds of its options, once they have been checked. -/
structure GuardedSigner where
  /-- The account's address in lower case. -/
  address : JsString
  agentId : JsString
  registry : List RegistryEntry
  currencyDecimals : Option ℕ
  maxValiditySeconds : Option ℤ
  validity_positive : ∀ m ∈ maxValiditySeconds, 0 < m
  collectors : List JsString
  permit2Spenders : List JsString
  /-- `typeof resolveAuthCapture === "function"`. -/
  resolves : Bool

section Signer
variable (platform : Platform) (viem : Viem) (signer : GuardedSigner)

/-- Records a refusal with the guard, which denies an amount of zero; whatever comes of that is ignored. -/
def auditRefusal (code : JsString) : SignerProgram JsString := do
  let intentId : JsString := encode "refused:" ++ code ++ ":0x" ++ (← SignerOp.ask (.randomHex 16))
  tryCatch (do
      match ← orThrown (← SignerOp.ask (.authorize {
          id := intentId
          agentId := signer.agentId
          merchant := ⟨encode "refusal:" ++ code, none⟩
          amount := ⟨0, encode "REFUSED:" ++ code⟩
          category := none
          rail := "x402"
          network := none
          mandateId := none
          context := none })) with
      | .authorized => do
        orThrown (← SignerOp.ask (.settle intentId false (some (encode "refused locally: " ++ code))))
        orThrown (← SignerOp.ask (.releaseSpend intentId))
      | _ => return ())
    fun _ => return ()
  return intentId

def refuse (code message : JsString) : SignerProgram α := do
  let intentId ← auditRefusal signer code
  throw (.refused message code intentId [])

/-- A refusal whose message could not be put together is thrown as that. -/
def refuseWith (code : JsString) (message : Throwing JsString) : SignerProgram α := do
  refuse signer code (← orThrown message)

/-! ### Behind a collector -/

def authCaptureEscrow : JsString := "0xBdEA0D1bcC5966192B070Fdf62aB4EF5b4420cff"
def zeroAddress : JsString := "0x0000000000000000000000000000000000000000"

def paymentInfoType : JsString :=
  encode "PaymentInfo(address operator,address payer,address receiver,address token,uint120 maxAmount," ++
    "uint48 preApprovalExpiry,uint48 authorizationExpiry,uint48 refundExpiry,uint16 minFeeBps," ++
    "uint16 maxFeeBps,address feeReceiver,uint256 salt)"

/-- `Number(BigInt(v))`. -/
def asAbiNumber (v : JsValue) : Throwing AbiValue := return .number ((← toBigInt v : ℤ) : Number)

def abiAddress (v : JsValue) : Throwing AbiValue := return .text (← viem.getAddress (← v.stringOf))

/-- The nonce that a declared payment has. -/
def deriveAuthCaptureNonce (chainId : ℤ) (token : JsString) (maxAmount preApprovalExpiry : ℤ) (declared : JsValue) :
    Throwing JsString := do
  let paymentInfo ← viem.encodeAbiParameters [
    ("bytes32", .text (viem.keccak256 (utf8 paymentInfoType))),
    ("address", ← abiAddress viem (member "operator" declared)),
    ("address", .text zeroAddress),
    ("address", ← abiAddress viem (member "receiver" declared)),
    ("address", .text (← viem.getAddress token)),
    ("uint120", .bigint maxAmount),
    ("uint48", .number ((preApprovalExpiry : ℤ) : Number)),
    ("uint48", ← asAbiNumber (member "authorizationExpiry" declared)),
    ("uint48", ← asAbiNumber (member "refundExpiry" declared)),
    ("uint16", ← asAbiNumber (member "minFeeBps" declared)),
    ("uint16", ← asAbiNumber (member "maxFeeBps" declared)),
    ("address", ← abiAddress viem (member "feeRecipient" declared)),
    ("uint256", .bigint (← toBigInt (member "salt" declared)))]
  let outer ← viem.encodeAbiParameters [("uint256", .bigint chainId), ("address", .text authCaptureEscrow),
    ("bytes32", .text (viem.keccak256 paymentInfo))]
  return platform.toLowerCase (viem.keccak256 outer)

/-! ### Amounts -/

/-- Atomic units in minor units, rounded up. -/
def scaleToMinor (atomic : ℤ) (tokenDecimals minorDecimals : ℕ) : ℤ :=
  if tokenDecimals = minorDecimals then atomic
  else if minorDecimals > tokenDecimals then atomic * 10 ^ (minorDecimals - tokenDecimals)
  else
    let divisor : ℤ := 10 ^ (tokenDecimals - minorDecimals)
    if atomic.tmod divisor = 0 then atomic.tdiv divisor else atomic.tdiv divisor + 1

namespace GuardedSigner

/-- `registry.get(...)`; a later entry replaces an earlier one. -/
def known (p : ExtractedPayment) : Option RegistryEntry :=
  signer.registry.reverse.find? fun entry => decide (entry.chainId = p.chainId ∧ entry.asset = p.asset)

/-- The granularities that tokens of a currency are registered with. -/
def decimalsOf (currency : JsString) : List Number :=
  ((signer.registry.filter fun entry => decide (platform.toUpperCase entry.symbol = currency)).map
    RegistryEntry.decimals).eraseDups

def minorDecimals (currency : JsString) : Option ℕ :=
  match signer.currencyDecimals, signer.decimalsOf platform currency with
  | some decimals, _ => some decimals
  | none, [decimals] => some decimals.toInt.toNat
  | none, _ => none

end GuardedSigner

/-! ### The gate -/

/-- What is signed once the guard has been asked. -/
def askGuard (typed : TypedDataRequest) (intent : PaymentIntent) : SignerProgram JsString := do
  match ← orThrown (← SignerOp.ask (.authorize intent)) with
  | .authorized =>
    match ← SignerOp.ask (.signTypedData typed) with
    | .error err => do
      let msg ← orThrown (errText err)
      orThrown (← SignerOp.ask (.settle intent.id false (some msg)))
      orThrown (← SignerOp.ask (.releaseSpend intent.id))
      throw (.thrown err)
    | .ok signature => do
      orThrown (← SignerOp.ask (.settle intent.id true none))
      return signature
  | .replayed original =>
    if original = "executed" then do orThrown (← SignerOp.ask (.signTypedData typed))
    else throw (.refused (encode "refusing to re-sign: an earlier attempt for this same authorization is " ++
      original ++ "; reconcile before retrying") "REPLAY_UNRESOLVED" intent.id [])
  | .refused status reasons =>
    let listed := joinWith ", " (reasons.map RefusalReason.code)
    let codes := if listed.isEmpty then platform.toUpperCase status else listed
    throw (.refused (encode "payment authorization refused by Vaduno guard [" ++ codes ++ "]" ++
      (if reasons.isEmpty then [] else encode ": " ++ joinWith "; " (reasons.map RefusalReason.message)))
      codes intent.id reasons)
  | .unexpected status =>
    throw (.refused (encode "unexpected guard status " ++ status ++ " (fail closed)") "UNEXPECTED_GUARD_STATUS"
      intent.id [])

def intentOf (p : ExtractedPayment) (digest payee : JsString) (amountMinor : Number) (currency : JsString) :
    PaymentIntent where
  id := encode "sig:" ++ digest
  agentId := signer.agentId
  merchant := ⟨payee, none⟩
  amount := ⟨amountMinor, currency⟩
  category := none
  rail := "x402"
  network := some (encode "eip155:" ++ intText p.chainId)
  mandateId := none
  context := none

/-- The amount in the policy's units; zero, which the guard denies, where it is not known. -/
def priced (typed : TypedDataRequest) (p : ExtractedPayment) (digest payee : JsString) : SignerProgram JsString :=
  match signer.known p with
  | none => askGuard platform typed (intentOf signer p digest payee 0 (encode "UNKNOWN:" ++ p.asset))
  | some entry =>
    let currency := platform.toUpperCase entry.symbol
    match signer.minorDecimals platform currency with
    | none =>
      refuse signer "AMBIGUOUS_CURRENCY_DECIMALS" (encode "currency " ++ currency ++
        " is registered with more than one token granularity (" ++
        joinWith ", " ((signer.decimalsOf platform currency).map Number.toText) ++
        " decimals) and no currencyDecimals was declared, so an amount in atomic units cannot be converted " ++
        "to policy minor units without guessing")
    | some minorDecimals =>
      if !entry.decimals.isInteger || decide (entry.decimals < 0) || decide (36 < entry.decimals) then
        refuse signer "INVALID_ASSET_DECIMALS" (encode "registry entry for " ++ p.asset ++ " declares decimals=" ++
          entry.decimals.toText ++ ", which is not a usable token granularity")
      else
        match p.value.filter fun value => decide (0 ≤ value) with
        | none => askGuard platform typed (intentOf signer p digest payee 0 currency)
        | some value =>
          let minor := scaleToMinor value entry.decimals.toInt.toNat minorDecimals
          if minor > maxSafeInteger then
            refuse signer "AMOUNT_NOT_REPRESENTABLE" (encode "refusing to sign: " ++ intText value ++
              " atomic units of a " ++ entry.decimals.toText ++ "-decimal token is " ++ intText minor ++
              " minor units at currencyDecimals=" ++ natText minorDecimals ++ ", past the " ++
              intText maxSafeInteger ++ " the policy engine can represent. Either the requested amount is absurd " ++
              "for this currency (check the payment), or currencyDecimals is finer than the payments denominated " ++
              "in it (check the configuration: a coarser unit, e.g. cents or the token's own granularity, makes " ++
              "ordinary payments fit). This is NOT a cap decision — policy never ran on this amount.")
          else askGuard platform typed (intentOf signer p digest payee ((minor : ℤ) : Number) currency)

/-- `declared && typeof declared === "object"`. -/
def isDeclaration : JsValue → Bool
  | .null => false
  | v => decide (typeOf v = "object")

/-- The payee behind a collector is the one that a declaration with the same nonce names. -/
def aliased (typed : TypedDataRequest) (p : ExtractedPayment) (digest : JsString) : SignerProgram JsString :=
  match p.collector with
  | none => priced platform signer typed p digest p.payee
  | some collector =>
    if !signer.resolves then
      refuse signer "AUTH_CAPTURE_UNPOLICEABLE" (encode "refusing to sign a " ++ p.primaryType ++
        " paying the token collector " ++ collector ++ ": in this scheme the true payee, capture operator and " ++
        "fee recipient are committed only inside the opaque nonce, so a merchant allowlist keyed on the payee " ++
        "would police the collector. Supply resolveAuthCapture() to declare the PaymentInfo.")
    else
      match p.value, p.validBefore with
      | some value, some validBefore => do
        let answer ← SignerOp.ask (.resolveAuthCapture
          ⟨p.chainId, p.asset, p.payer, value, validBefore, p.nonce, collector⟩)
        let declared := answer.toOption.getD .null
        if !isDeclaration declared then
          refuse signer "AUTH_CAPTURE_UNRESOLVED" (encode "resolveAuthCapture() did not declare a PaymentInfo " ++
            "for this authorization, so the real payee is unknown (default-deny)")
        else
          let derived := deriveAuthCaptureNonce platform viem p.chainId p.asset value validBefore declared
          if derived.toOption ≠ some p.nonce then
            refuseWith signer "AUTH_CAPTURE_MISMATCH" do
              return encode "the declared PaymentInfo does not re-derive the nonce being signed: the declaration " ++
                "names receiver " ++ (← (member "receiver" declared).stringOf) ++
                ", which is not what these bytes authorize"
          else do
            let receiver ← orThrown (member "receiver" declared).stringOf
            match normAddress platform (.string receiver) with
            | none => refuse signer "AUTH_CAPTURE_MISMATCH" "declared receiver is not an address"
            | some payee => priced platform signer typed p digest payee
      | _, _ =>
        refuse signer "AUTH_CAPTURE_UNPOLICEABLE" (encode "refusing to sign a collector-aliased authorization " ++
          "whose amount or validity window is not a plain integer: the nonce cannot be re-derived from it")

/-- The digest and the record of what it covers are mandatory. -/
def identified (typed : TypedDataRequest) (p : ExtractedPayment) : SignerProgram JsString :=
  match viem.hashTypedData typed with
  | .error err =>
    refuseWith signer "DIGEST_UNCOMPUTABLE" do
      return encode "refusing to sign: the EIP-712 digest could not be computed (" ++ (← errText err) ++ ")"
  | .ok digest =>
    match committedFieldSet viem.getTypesForEIP712Domain typed with
    | .error err =>
      refuseWith signer "COMMITMENT_RECORD_UNCOMPUTABLE" do
        return encode "refusing to sign: the digest is computable but the set of fields it commits to is not, " ++
          "so the ledger row could not state what was policed (" ++ (← errText err) ++ ")"
    | .ok _ => aliased platform viem signer typed p digest

/-- The spender is whom a Permit2 signature empowers. -/
def empowered (typed : TypedDataRequest) (p : ExtractedPayment) : SignerProgram JsString :=
  match p.kind with
  | .eip3009 => identified platform viem signer typed p
  | .permit2 =>
    match p.spender with
    | none => refuse signer "PERMIT2_SPENDER_UNKNOWN" "refusing to sign: `spender` is not an address"
    | some spender =>
      if spender ∉ signer.permit2Spenders then
        refuse signer "PERMIT2_SPENDER_NOT_ALLOWED" (encode
          "refusing to sign a Permit2 authorization empowering spender " ++ spender ++ ": that address, not the " ++
          "witness recipient, is what the signature authorizes to move the tokens. Declare permitted spenders " ++
          "via the permit2Spenders option.")
      else identified platform viem signer typed p

/-- From when on an authorization is taken to be valid. -/
def startsAt (p : ExtractedPayment) (nowSec : ℤ) : ℤ :=
  match p.validAfter with
  | some validAfter => if 0 < validAfter then validAfter else nowSec
  | none => nowSec

/-- The validity window, of which only an expiry that is a plain integer is checked. -/
def timely (typed : TypedDataRequest) (p : ExtractedPayment) (nowSec : ℤ) : SignerProgram JsString :=
  match p.validBefore with
  | none => empowered platform viem signer typed p
  | some validBefore =>
    if validBefore ≤ nowSec then
      refuse signer "AUTHORIZATION_EXPIRED" (encode "refusing to sign an authorization that expired at " ++
        intText validBefore ++ " (now " ++ intText nowSec ++
        "): it cannot settle, but it would consume budget and be recorded as spend")
    else
      match signer.maxValiditySeconds.filter fun m => decide (m < validBefore - startsAt p nowSec) with
      | some m =>
        refuse signer "VALIDITY_WINDOW_TOO_LONG" (encode "refusing to sign an authorization valid for " ++
          intText (validBefore - startsAt p nowSec) ++ "s, over the configured maxValiditySeconds of " ++ intText m)
      | none => empowered platform viem signer typed p

/-- The payment's fields are committed to, and its payer is this wallet. -/
def policed (typed : TypedDataRequest) (p : ExtractedPayment) : SignerProgram JsString :=
  match p.uncommitted with
  | some reason => refuse signer "TYPED_DATA_NOT_COMMITTED" (encode "refusing to sign: " ++ reason)
  | none =>
    match p.payer.filter (· ≠ signer.address) with
    | some payer =>
      refuse signer "PAYER_NOT_THIS_SIGNER" (encode "refusing to sign an authorization whose payer is " ++ payer ++
        ", not this wallet (" ++ signer.address ++
        "): it can never settle, but it would consume budget and be recorded as spend")
    | none => do
      let ms ← SignerOp.ask .now
      timely platform viem signer typed p (ms / 1000)

/-- `String(typedData?.primaryType ?? "(none)")`. -/
def primaryTypeText (typed : TypedDataRequest) : Throwing JsString :=
  match typed.primaryType with
  | .undefined | .null => .ok "(none)"
  | v => v.stringOf

/-- What is not a payment of a known shape is refused, a collector's by name. -/
def unrecognized (typed : TypedDataRequest) : SignerProgram JsString := do
  match collectorInUnpoliceableShape platform typed signer.collectors with
  | some collector =>
    let primaryType ← orThrown (primaryTypeText typed)
    refuse signer "AUTH_CAPTURE_FLAVOUR_UNSUPPORTED" (encode "refusing to sign a " ++ primaryType ++
      " naming the token collector " ++ collector ++ ": the signed struct carries no policeable payee — in the " ++
      "collector-aliased schemes the receiver, capture operator and fee recipient exist only inside the opaque " ++
      "nonce, and there is nothing in these bytes a resolveAuthCapture() declaration could be checked against, " ++
      "so supplying a resolver does not change this outcome. " ++
      (if primaryType = "PermitTransferFrom" then
        encode "This is the permit2 flavour of @x402/evm's auth-capture scheme (extra.assetTransferMethod: " ++
          "\"permit2\"); the EIP-3009 flavour — omit that field, or set it to \"eip3009\" — signs a struct " ++
          "whose nonce CAN be re-derived from a declaration, and is policeable."
      else encode "This shape is not one this wrapper recognizes, so no claim is made about which scheme " ++
        "produced it."))
  | none =>
    let shown ← orThrown typed.primaryType.stringify
    let _ ← orThrown (primaryTypeText typed)
    refuse signer "UNRECOGNIZED_TYPED_DATA" (encode "refusing to sign primaryType " ++ shown.getD "undefined" ++
      ": not a recognized payment authorization shape (default-deny)")

/-- `signTypedData`, given the snapshot of a request, if it could be taken. -/
def gatedSignTypedData (snapshot : Option TypedDataRequest) : SignerProgram JsString :=
  match snapshot with
  | none => refuse signer "TYPED_DATA_NOT_SERIALIZABLE"
      "typed data could not be safely snapshotted (default-deny)"
  | some typed => do
    match ← orThrown (extractPayment platform viem typed signer.collectors) with
    | none => unrecognized platform signer typed
    | some p => policed platform viem signer typed p

end Signer
end Vaduno.Cloudflare
