import Vaduno.Mandate.Check
import Vaduno.Mandate.Pq
import Vaduno.Policy.Engine
import Vaduno.Transparency.Checkpoint

/-! Mandates as they are registered: objects with whatever properties they have. Their signatures are checked
first, each under a key that the verifier holds for the algorithm and the id that the mandate names; what comes
after is shared by both formats and reads the constraints as they are. -/
namespace Vaduno.Mandate
open Ecma Policy Ledger Transparency

def mandateAlg : JsString := "Ed25519"
def mldsa44Alg : JsString := "ML-DSA-44"
def mandateV2Algs : List JsString := [mandateAlg, mldsa44Alg]

def mandateDomain : JsString := "vaduno-mandate/v1\n"
def mandateV2Domain : JsString := "vaduno-mandate/v2\n"
def keyIdDomain : JsString := "vaduno-mandate-key/v1\n"

/-- What the platform provides for signatures. -/
structure MandateCrypto extends Crypto where
  /-- `Buffer.from(v, "base64")`. -/
  bufferFrom : JsValue → Throwing Bytes

/-- ML-DSA-44, where the runtime has it. -/
structure MlDsa44Ops where
  verify : (message : Bytes) → (publicKeyPem : JsString) → (signature : Bytes) → Throwing Bool

/-! ### The keys of a verifier -/

section Keys
variable (crypto : MandateCrypto)

/-- The id of a key: the first eight bytes of a digest of its SPKI. -/
def keyIdOf (der : Bytes) : JsString := (crypto.sha256 (utf8 keyIdDomain ++ der)).hex.take 16

def mlDsa44KeyId (publicKeyPem : JsString) : Throwing JsString := do
  let _ ← rawMlDsa44PublicKey publicKeyPem
  return keyIdOf crypto (← spkiDerFromPem publicKeyPem)

/-- The keys that mandates are verified against, per algorithm, each under its own id; whether the runtime has
ML-DSA; and the algorithms that every accepted mandate must have verified. -/
structure MandateVerifier where
  verifyKeys : List (JsString × KeyObject)
  ids : ∀ entry ∈ verifyKeys, entry.1 = keyIdOf crypto entry.2.spki
  mlDsa44VerifyKeys : List (JsString × JsString)
  mlDsa44Ids : ∀ entry ∈ mlDsa44VerifyKeys, mlDsa44KeyId crypto entry.2 = .ok entry.1
  pq : Option MlDsa44Ops
  requireAlgs : List JsString
  implemented : ∀ alg ∈ requireAlgs, alg ∈ mandateV2Algs

abbrev VerifyKeys := { keys : List (JsString × KeyObject) // ∀ entry ∈ keys, entry.1 = keyIdOf crypto entry.2.spki }

abbrev MlDsa44VerifyKeys :=
  { keys : List (JsString × JsString) // ∀ entry ∈ keys, mlDsa44KeyId crypto entry.2 = .ok entry.1 }

/-- `verifyKeys.set(mandateKeyId(pem), createPublicKey(pem))` for each; a later key replaces an earlier one. -/
def registerKeys (keys : VerifyKeys crypto) : List JsString → Throwing (VerifyKeys crypto)
  | [] => .ok keys
  | pem :: rest =>
    match crypto.createPublicKey pem with
    | .error message => .error (.error message)
    | .ok key => registerKeys ⟨(keyIdOf crypto key.spki, key) :: keys.1,
        List.forall_mem_cons.mpr ⟨rfl, keys.2⟩⟩ rest

def registerMlDsa44Keys (keys : MlDsa44VerifyKeys crypto) : List JsString → Throwing (MlDsa44VerifyKeys crypto)
  | [] => .ok keys
  | pem :: rest =>
    match named : mlDsa44KeyId crypto pem with
    | .error e => .error e
    | .ok kid => registerMlDsa44Keys ⟨(kid, pem) :: keys.1, List.forall_mem_cons.mpr ⟨named, keys.2⟩⟩ rest

def requiredAlgs : List JsValue → Throwing { algs : List JsString // ∀ alg ∈ algs, alg ∈ mandateV2Algs }
  | [] => .ok ⟨[], List.forall_mem_nil _⟩
  | alg :: rest => do
    let unknown := do
      throw (.error (encode "requireAlgs contains \"" ++ (← alg.stringOf) ++ "\"; this build implements " ++
        mandateAlg ++ " and " ++ mldsa44Alg))
    match alg with
    | .string alg =>
      if known : alg ∈ mandateV2Algs then
        let algs ← requiredAlgs rest
        return ⟨alg :: algs.1, List.forall_mem_cons.mpr ⟨known, algs.2⟩⟩
      else unknown
    | _ => unknown

/-- The verifying side of the constructor, given the key that `publicKeyPem` comes to. -/
def MandateVerifier.construct (publicKeyPem : JsString) (additionalPublicKeyPems : List JsString)
    (requireAlgs : List JsValue) (mlDsa44PublicKeyPems : List JsString) (pq : Option MlDsa44Ops) :
    Throwing (MandateVerifier crypto) := do
  let keys ← registerKeys crypto ⟨[], List.forall_mem_nil _⟩ (publicKeyPem :: additionalPublicKeyPems)
  let algs ← requiredAlgs requireAlgs
  let mlDsa44Keys ← registerMlDsa44Keys crypto ⟨[], List.forall_mem_nil _⟩ mlDsa44PublicKeyPems
  return ⟨keys.1, keys.2, mlDsa44Keys.1, mlDsa44Keys.2, pq, algs.1, algs.2⟩

end Keys

/-! ### Signatures -/

/-- A registered mandate, by its own properties. -/
abbrev MandateObject := List (JsString × JsValue)

def MandateObject.get (name : JsString) (mandate : MandateObject) : JsValue := member name (.object mandate)

/-- Every property but one. -/
def MandateObject.without (name : JsString) (mandate : MandateObject) : JsValue :=
  .object (mandate.filter (·.1 ≠ name))

def isNumber (n : Number) : JsValue → Bool
  | .number m => decide (m = n)
  | _ => false

def isString (s : JsString) : JsValue → Bool
  | .string t => decide (t = s)
  | _ => false

def isMandateV2 (mandate : MandateObject) : Bool := isNumber 2 (mandate.get "v")

def mandatePayload (unsigned : JsValue) : Throwing Bytes := return utf8 (mandateDomain ++ (← canonicalJson unsigned))

def mandateV2Payload (unsigned : JsValue) : Throwing Bytes :=
  return utf8 (mandateV2Domain ++ (← canonicalJson unsigned))

/-- `map.get(kid)`. -/
def keyNamed (keys : List (JsString × κ)) : JsValue → Option κ
  | .string kid => keys.lookup kid
  | _ => none

abbrev Problem := CheckCode × JsString

/-- The decoded length of a signature. -/
def signatureBytes (alg : JsString) : ℕ := if alg = mandateAlg then 64 else 2420

/-- `/^[0-9a-f]{16}$/`. -/
def isKid (s : JsString) : Bool := s.length = 16 && s.all isHexUnit

/-- `/^[A-Za-z0-9+/]+={0,2}$/`. -/
def isBase64Shape (s : JsString) : Bool := !(s.takeWhile isBase64Unit).isEmpty && isBase64 s

/-- The keys of a plain object in order; an instance of a class has none of its own. -/
def sortedKeys : JsValue → Option (List JsString)
  | .object props => some ((props.map Prod.fst).insertionSort fun a b => ¬b < a)
  | .foreign (some _) _ _ => some []
  | _ => none

def isNonEmptyString : JsValue → Bool
  | .string s => !s.isEmpty
  | _ => false

section Structure
variable (crypto : MandateCrypto) (mandate : MandateObject)

def algsProblem : Option JsString :=
  match mandate.get "algs" with
  | .array [first, second] => if isString mandateAlg first && isString mldsa44Alg second then none else wrong
  | _ => wrong
where
  wrong : Option JsString :=
    some (encode "algs must be exactly [\"Ed25519\",\"ML-DSA-44\"] in that order (v2 is the hybrid format)")

def recordProblem (field : JsString) : Throwing (Option JsString) :=
  match sortedKeys (mandate.get field) with
  | none => .ok (some (field ++ " must be a plain object"))
  | some keys =>
    if keys = mandateV2Algs then .ok none
    else do
      let got ← (JsValue.array (keys.map .string)).stringify
      return some (field ++ " keys must equal algs exactly (got " ++ got.getD [] ++ ")")

def algProblem (alg : JsString) : Throwing (Option JsString) :=
  match member alg (mandate.get "kids"), member alg (mandate.get "signatures") with
  | .string kid, signature =>
    if !isKid kid then .ok badKid
    else
      match signature with
      | .string sig =>
        let want := signatureBytes alg
        if !isBase64Shape sig then .ok badSignature
        else if (want + 2) / 3 * 4 < sig.length then
          .ok (some (encode "signatures[\"" ++ alg ++ "\"] is longer than a " ++ natText want ++
            "-byte signature can encode"))
        else do
          if (← crypto.bufferFrom signature).length ≠ want then
            return some (encode "signatures[\"" ++ alg ++ "\"] must decode to exactly " ++ natText want ++ " bytes")
          else return none
      | _ => .ok badSignature
  | _, _ => .ok badKid
where
  badKid : Option JsString := some (encode "kids[\"" ++ alg ++ "\"] must be 16 lowercase hex chars")
  badSignature : Option JsString := some (encode "signatures[\"" ++ alg ++ "\"] must be base64")

def nameProblem : Option JsString :=
  (["id", "issuer", "agentId", "createdAt"].find? fun name => !isNonEmptyString (mandate.get name)).map
    (· ++ encode " must be a non-empty string")

/-- `null`, or not of type `object`. -/
def constraintsProblem : Option JsString :=
  match mandate.get "constraints" with
  | .array _ | .object _ | .foreign (some _) _ _ => none
  | _ => some "constraints must be an object"

/-- The first of two problems. -/
def orNext (first : Throwing (Option JsString)) (second : Throwing (Option JsString)) : Throwing (Option JsString) := do
  match ← first with
  | some message => return some message
  | none => second

/-- What is wrong with the structure of a mandate of the second format. -/
def checkMandateV2Structure : Throwing (Option JsString) :=
  orNext (.ok (if isMandateV2 mandate then none else some "v must be 2")) <|
  orNext (.ok (algsProblem mandate)) <|
  orNext (recordProblem mandate "kids") <|
  orNext (recordProblem mandate "signatures") <|
  orNext (algProblem crypto mandate mandateAlg) <|
  orNext (algProblem crypto mandate mldsa44Alg) <|
  orNext (.ok (nameProblem mandate)) (.ok (constraintsProblem mandate))

end Structure

/-- What cannot be serialized or decoded does not verify. -/
def edValid (crypto : MandateCrypto) (key : KeyObject) (payload : Throwing Bytes) (signature : JsValue) : Bool :=
  match payload, crypto.bufferFrom signature with
  | .ok payload, .ok signature => crypto.edVerify payload key signature
  | _, _ => false

namespace MandateVerifier
variable {crypto : MandateCrypto} (verifier : MandateVerifier crypto)

/-- Why the one signature of the first format is not good enough. -/
def v1Problem (mandate : MandateObject) : Throwing (Option Problem) := do
  if !isNumber 1 (mandate.get "v") then
    return some (.versionUnsupported, encode "mandate format v" ++ (← (mandate.get "v").stringOf) ++
      " is not supported (this build issues and accepts v1 and v2)")
  else if !isString mandateAlg (mandate.get "alg") then
    return some (.algUnsupported, encode "mandate signature algorithm \"" ++ (← (mandate.get "alg").stringOf) ++
      "\" is not supported (expected " ++ mandateAlg ++ ")")
  else
    let missing := verifier.requireAlgs.filter (· ≠ mandateAlg)
    if missing ≠ [] then
      return some (.algRequirementNotMet, encode "policy requires verified " ++ joinWith ", " missing ++
        "; a v1 mandate carries only " ++ mandateAlg)
    else
      match keyNamed verifier.verifyKeys (mandate.get "kid") with
      | none =>
        return some (.keyUnknown, encode "mandate names signing key " ++ (← (mandate.get "kid").stringOf) ++
          ", which this verifier does not hold")
      | some key =>
        if edValid crypto key (mandatePayload (mandate.without "signature")) (mandate.get "signature") then return none
        else return some (.signatureInvalid, "mandate signature does not verify against issuer public key")

/-- The ML-DSA half is passed over only where it cannot be verified here and is not required. -/
def pqProblem (kids signatures : JsValue) (payload : Bytes) : Throwing (Option Problem) :=
  let pqRequired := verifier.requireAlgs.contains mldsa44Alg
  match verifier.pq with
  | none =>
    if pqRequired then
      .ok (some (.algRequirementNotMet, encode "policy requires verified " ++ mldsa44Alg ++
        " but this runtime's node:crypto has no native ML-DSA " ++
        "(runtime probe negative — needs Node >= 24.7 built against OpenSSL >= 3.5)"))
    else .ok none
  | some ops =>
    match keyNamed verifier.mlDsa44VerifyKeys (member mldsa44Alg kids) with
    | none =>
      if pqRequired then do
        return some (.keyUnknown, encode "mandate names " ++ mldsa44Alg ++ " key " ++
          (← (member mldsa44Alg kids).stringOf) ++ ", which this verifier does not hold")
      else .ok none
    | some pqPem => do
      if ← ops.verify payload pqPem (← crypto.bufferFrom (member mldsa44Alg signatures)) then return none
      else return some (.signatureInvalid, encode "mandate " ++ mldsa44Alg ++
        " signature does not verify against issuer public key")

/-- Why the signatures of the second format are not good enough. -/
def v2Problem (mandate : MandateObject) : Throwing (Option Problem) := do
  match ← checkMandateV2Structure crypto mandate with
  | some message => return some (.malformed, encode "malformed v2 mandate: " ++ message)
  | none =>
    let kids := mandate.get "kids"
    let signatures := mandate.get "signatures"
    match keyNamed verifier.verifyKeys (member mandateAlg kids) with
    | none =>
      return some (.keyUnknown, encode "mandate names " ++ mandateAlg ++ " key " ++
        (← (member mandateAlg kids).stringOf) ++ ", which this verifier does not hold")
    | some edKey =>
      let payload := mandateV2Payload (mandate.without "signatures")
      if edValid crypto edKey payload (member mandateAlg signatures) then
        verifier.pqProblem kids signatures (payload.toOption.getD [])
      else return some (.signatureInvalid, encode "mandate " ++ mandateAlg ++
        " signature does not verify against issuer public key")

/-- An unrecognised version is refused as one that is not the first. -/
def signatureProblem (mandate : MandateObject) : Throwing (Option Problem) :=
  if isMandateV2 mandate then verifier.v2Problem mandate else verifier.v1Problem mandate

end MandateVerifier

/-! ### Constraints -/

/-- `v.name`. -/
def property (name : JsString) : JsValue → Throwing JsValue
  | .undefined | .null => .error .typeError
  | v => .ok (member name v)

/-- `v.length > 0`, for a value that is no list. -/
def lengthPositive (platform : Platform) : JsValue → Throwing Bool
  | .string s => .ok !s.isEmpty
  | v => return decide (0 < (← (member "length" v).toNumber platform.stringToNumber))

section Constraints
variable (platform : Platform) (intent : PaymentIntent)

/-- `parseMs(v)`. -/
def parseMs (v : JsValue) : Throwing Number := return platform.dateParse (← v.toText)

/-- `v.toUpperCase()`. -/
def upperCase : JsValue → Throwing JsString
  | .string s => .ok (platform.toUpperCase s)
  | _ => .error .typeError

/-- `merchants.some((m) => merchantMatches(intent, m))`. -/
def someMatches : List JsValue → Throwing Bool
  | [] => .ok false
  | .string pattern :: rest => if merchantMatches platform intent.merchant pattern then .ok true else someMatches rest
  | _ :: _ => .error .typeError

/-- Whether no merchant is listed, or one that matches. -/
def coversMerchant : JsValue → Throwing Bool
  | .array [] => .ok true
  | .array items => someMatches platform intent items
  | v => do
    if v.truthy then
      if ← lengthPositive platform v then throw .typeError else return true
    else return true

/-- `v.toLowerCase()`. -/
def lowerCase : JsValue → Throwing JsString
  | .string s => .ok (platform.toLowerCase s)
  | _ => .error .typeError

/-- Whether no category is listed, or the intent's. -/
def coversCategory (categories : JsValue) : Throwing Bool :=
  let cat := (intent.category.map platform.toLowerCase).getD []
  match categories with
  | .array [] => .ok true
  | .array items => if cat = [] then .ok false else return (← items.mapM (lowerCase platform)).contains cat
  | v => do
    if v.truthy then
      if ← lengthPositive platform v then if cat = [] then return false else throw .typeError
      else return true
    else return true

/-- A bound context that is no text is never presented. -/
def checkBoundContext : JsValue → MandateCheck
  | .string boundCtx => checkContext platform boundCtx intent
  | _ =>
    match intent.context with
    | some (.object props) =>
      match mandateContextHash platform (.object props) with
      | .error _ => .refuse .contextMismatch "intent context could not be canonicalized"
      | .ok _ => .refuse .contextMismatch "intent context does not hash to the mandate's contextHash"
    | some (.foreign (some _) _ _) => .refuse .contextMismatch "intent context could not be canonicalized"
    | _ => .refuse .contextMismatch "mandate is context-bound but the intent carries no context object"

/-- Everything downstream of the signatures. -/
def checkStateShared (revoked : Bool) (uses : Number) (mandate : MandateObject) (now : Throwing Number) :
    Throwing MandateCheck := do
  if revoked then return .refuse .revoked "mandate was revoked"
  let nowMs ← now
  let constraints := mandate.get "constraints"
  let validFrom ← property "validFrom" constraints
  let fromMs ← parseMs platform validFrom
  let expiresAt ← property "expiresAt" constraints
  let expMs ← parseMs platform expiresAt
  if fromMs.isNaN || expMs.isNaN then
    return .refuse .timeUnparseable "mandate validFrom/expiresAt is not a parseable timestamp"
  if nowMs < fromMs then return .refuse .notYetValid (encode "mandate valid from " ++ (← validFrom.toText))
  if expMs ≤ nowMs then return .refuse .expired (encode "mandate expired at " ++ (← expiresAt.toText))
  let maxUses := member "maxUses" constraints
  if ← platform.reaches uses maxUses then
    return .refuse .usesExhausted (encode "mandate already used " ++ uses.toText ++ "/" ++ (← maxUses.toText) ++
      " times")
  let agentId := mandate.get "agentId"
  if !isString intent.agentId agentId then
    return .refuse .agentMismatch (encode "mandate issued to agent \"" ++ (← agentId.toText) ++
      "\", intent is from \"" ++ intent.agentId ++ "\"")
  let currency := member "currency" constraints
  if (← upperCase platform currency) ≠ platform.toUpperCase intent.amount.currency then
    return .refuse .currencyMismatch (encode "mandate currency " ++ (← currency.toText) ++ " != intent " ++
      intent.amount.currency)
  let maxAmountMinor := member "maxAmountMinor" constraints
  if ← platform.exceeds intent.amount.amountMinor maxAmountMinor then
    return .refuse .amountExceedsMandate (intent.amount.amountMinor.toText ++ " exceeds mandate max " ++
      (← maxAmountMinor.toText))
  if !(← coversMerchant platform intent (member "merchants" constraints)) then
    return .refuse .merchantNotCovered (encode "merchant \"" ++ intent.merchant.id ++
      "\" is not covered by this mandate")
  if !(← coversCategory platform intent (member "categories" constraints)) then
    return .refuse .categoryNotCovered (encode "category \"" ++ intent.category.getD "(none)" ++
      "\" is not covered by this mandate")
  let boundCtx := member "contextHash" constraints
  if boundCtx.truthy then return checkBoundContext platform intent boundCtx
  return .valid

end Constraints

/-! ### The check -/

structure RegisteredMandate where
  mandate : MandateObject
  uses : Number
  revoked : Bool

namespace MandateVerifier
variable {crypto : MandateCrypto} (verifier : MandateVerifier crypto) (platform : Platform)

def checkState (state : RegisteredMandate) (intent : PaymentIntent) (uses : Number) (now : Throwing Number) :
    Throwing MandateCheck := do
  match ← verifier.signatureProblem state.mandate with
  | some (code, message) => return .refuse code message
  | none => checkStateShared platform intent state.revoked uses state.mandate now

/-- Validation without consumption, against what is registered. -/
def check (states : List (JsString × RegisteredMandate)) (mandateId : JsString) (intent : PaymentIntent)
    (now : Throwing Number) : Throwing MandateCheck :=
  match states.lookup mandateId with
  | none => .ok (.refuse .unknownMandate (encode "mandate " ++ mandateId ++ " is not registered"))
  | some state => verifier.checkState platform state intent state.uses now

end MandateVerifier

/-! ### Mandates of the declared types -/

/-- A list that may be absent. -/
def listed : Option (List JsString) → JsValue
  | some items => .array (items.map .string)
  | none => .undefined

/-- Constraints as an object; what is absent is `undefined`. -/
def MandateConstraints.toObject (constraints : MandateConstraints) : JsValue :=
  .object [(encode "maxAmountMinor", constraints.maxAmountMinor), (encode "currency", .string constraints.currency),
    (encode "merchants", listed constraints.merchants), (encode "categories", listed constraints.categories),
    (encode "validFrom", .string constraints.validFrom), (encode "expiresAt", .string constraints.expiresAt),
    (encode "maxUses", constraints.maxUses),
    (encode "contextHash", match constraints.contextHash with
      | some hash => .string hash
      | none => .undefined)]

section Typed
variable {platform : Platform} {intent : PaymentIntent}

theorem someMatches_strings (patterns : List JsString) : someMatches platform intent (patterns.map .string) =
    .ok (patterns.any (merchantMatches platform intent.merchant)) := by
  induction patterns with
  | nil => rfl
  | cons pattern rest ih =>
    rw [List.map_cons, someMatches, ih, List.any_cons]
    cases merchantMatches platform intent.merchant pattern <;> rfl

theorem mapM_lowerCase (own : List JsString) :
    (own.map JsValue.string).mapM (lowerCase platform) = .ok (own.map platform.toLowerCase) := by
  induction own with
  | nil => rfl
  | cons category rest ih =>
    rw [List.map_cons, List.mapM_cons, ih]
    rfl

theorem coversMerchant_listed (merchants : Option (List JsString)) :
    coversMerchant platform intent (listed merchants) = .ok (!(decide (merchants.getD [] ≠ []) &&
      !(merchants.getD []).any (merchantMatches platform intent.merchant))) := by
  rcases merchants with _ | _ | ⟨pattern, rest⟩
  · rfl
  · rfl
  · change someMatches platform intent ((pattern :: rest).map .string) = _
    rw [someMatches_strings]
    simp

theorem coversCategory_listed (categories : Option (List JsString)) :
    coversCategory platform intent (listed categories) = .ok (!(decide (categories.getD [] ≠ []) &&
      (decide ((intent.category.map platform.toLowerCase).getD [] = []) || !((categories.getD []).map
        platform.toLowerCase).contains ((intent.category.map platform.toLowerCase).getD [])))) := by
  rcases categories with _ | _ | ⟨own, rest⟩
  · rfl
  · rfl
  · change (if _ then _ else ((own :: rest).map JsValue.string).mapM (lowerCase platform) >>= _) = _
    rw [mapM_lowerCase]
    split_ifs with absent
    · simp [absent]
    · simp [absent, ok_bind]

/-- What the context of a mandate decides, once it is typed. -/
def boundContext (platform : Platform) (intent : PaymentIntent) : Option JsString → Throwing MandateCheck
  | none | some [] => return .valid
  | some boundCtx => return checkContext platform boundCtx intent

/-- On a mandate of the declared types, the checks after the signatures are those on its constraints. -/
theorem checkStateShared_typed {mandate : AnyMandate} {object : MandateObject} {uses nowMs : Number}
    (constraints : object.get "constraints" = mandate.constraints.toObject)
    (agent : object.get "agentId" = .string mandate.agentId) :
    checkStateShared platform intent false uses object (.ok nowMs) =
      checkConstraints platform mandate intent uses nowMs := by
  have validFrom :
    property "validFrom" mandate.constraints.toObject = .ok (.string mandate.constraints.validFrom) := rfl
  have expiresAt :
    property "expiresAt" mandate.constraints.toObject = .ok (.string mandate.constraints.expiresAt) := rfl
  have maxUses : member "maxUses" mandate.constraints.toObject = mandate.constraints.maxUses := rfl
  have currency : member "currency" mandate.constraints.toObject = .string mandate.constraints.currency := rfl
  have limit : member "maxAmountMinor" mandate.constraints.toObject = mandate.constraints.maxAmountMinor := rfl
  have merchants : member "merchants" mandate.constraints.toObject = listed mandate.constraints.merchants := rfl
  have categories : member "categories" mandate.constraints.toObject = listed mandate.constraints.categories := rfl
  have context : (if (member "contextHash" mandate.constraints.toObject).truthy = true then
        pure (checkBoundContext platform intent (member "contextHash" mandate.constraints.toObject))
      else pure .valid : Throwing MandateCheck) = boundContext platform intent mandate.constraints.contextHash := by
    have bound : member "contextHash" mandate.constraints.toObject =
        mandate.constraints.contextHash.elim .undefined .string := by
      unfold MandateConstraints.toObject
      cases mandate.constraints.contextHash <;> rfl
    rw [bound]
    rcases mandate.constraints.contextHash with _ | _ | ⟨u, rest⟩ <;> rfl
  unfold checkStateShared checkConstraints
  rw [constraints, agent]
  simp only [validFrom, expiresAt, maxUses, currency, limit, merchants, categories, ok_bind, parseMs,
    JsValue.toText, isString, upperCase, coversMerchant_listed, coversCategory_listed, Bool.false_eq_true, if_false,
    Bool.not_not, pure_bind, Bool.not_eq_true', Bool.not_eq_false', decide_eq_false_iff_not, ne_eq, context] <;>
    rfl

end Typed
end Vaduno.Mandate
