import Vaduno.Ledger.Hash
import Vaduno.Ecma.Utf8
import Vaduno.Revocation.Bitstring

/-! The signed status list that a verifier fetches, and the check of one entry of it. Every problem
with the list is a refusal: what cannot be verified is unknown, not clean. -/
namespace Vaduno.Revocation
open Ecma Ledger

inductive StatusPurpose
  | revocation
  | suspension
  deriving DecidableEq

def StatusPurpose.text : StatusPurpose → JsString
  | revocation => "revocation"
  | suspension => "suspension"

/-- What a status list says before it is signed. -/
structure UnsignedList where
  id : JsString
  issuer : JsString
  statusPurpose : StatusPurpose
  encodedList : JsString
  /-- Entries in the list, set or not. -/
  entries : Number
  version : Number
  validFrom : JsString
  validUntil : JsString

structure StatusListCredential extends UnsignedList where
  signature : JsString

def UnsignedList.json (list : UnsignedList) : JsValue :=
  .object [("id", .string list.id), ("issuer", .string list.issuer),
    ("statusPurpose", .string list.statusPurpose.text), ("encodedList", .string list.encodedList),
    ("entries", .number list.entries), ("version", .number list.version),
    ("validFrom", .string list.validFrom), ("validUntil", .string list.validUntil)]

def statusListDomain : JsString := "vaduno-status-list/v1\n"

def payload (list : UnsignedList) : Throwing Bytes := do
  return utf8 (statusListDomain ++ (← canonicalJson list.json))

inductive StatusCheckCode
  | ok
  | signatureInvalid
  | statusListExpired
  | statusListNotYetValid
  | statusListLengthError
  | rangeError
  | purposeMismatch
  | listMismatch
  | issuerMismatch
  | malformed
  deriving DecidableEq

def StatusCheckCode.text : StatusCheckCode → JsString
  | ok => "OK"
  | signatureInvalid => "SIGNATURE_INVALID"
  | statusListExpired => "STATUS_LIST_EXPIRED"
  | statusListNotYetValid => "STATUS_LIST_NOT_YET_VALID"
  | statusListLengthError => "STATUS_LIST_LENGTH_ERROR"
  | rangeError => "RANGE_ERROR"
  | purposeMismatch => "PURPOSE_MISMATCH"
  | listMismatch => "LIST_MISMATCH"
  | issuerMismatch => "ISSUER_MISMATCH"
  | malformed => "MALFORMED"

structure StatusCheck where
  valid : Bool
  revoked : Bool
  code : StatusCheckCode
  message : JsString

/-- Which list a check is for. -/
structure CheckOptions where
  publicKeyPem : JsString
  expectedPurpose : StatusPurpose
  expectedListId : Option JsString
  expectedIssuer : Option JsString

/-- What a verifier takes from its runtime. -/
structure Verifier where
  zlib : Zlib
  /-- `Date.parse`, NaN where the text is no timestamp. -/
  dateParse : JsString → Number
  /-- `verify(null, payload, createPublicKey(pem), Buffer.from(signature, "base64"))`. -/
  edVerify : (payload : Bytes) → (publicKeyPem signature : JsString) → Throwing Bool

def failCheck (code : StatusCheckCode) (message : JsString) : Throwing StatusCheck :=
  .ok ⟨false, false, code, message⟩

section Check
variable (verifier : Verifier)

/-- Whether the signature verifies; whatever throws on the way does not. -/
def signatureOk (credential : StatusListCredential) (publicKeyPem : JsString) : Bool :=
  match payload credential.toUnsignedList with
  | .error _ => false
  | .ok bytes =>
    match verifier.edVerify bytes publicKeyPem credential.signature with
    | .error _ => false
    | .ok verified => verified

/-- The last step: one entry of a list that stood every other check. -/
def readEntry (credential : StatusListCredential) (bits : Bitstring) (index : Number) :
    Throwing StatusCheck :=
  match bits.get index with
  | .error err => return ⟨false, false, .rangeError, ← errText err⟩
  | .ok true => .ok ⟨false, true, .ok, "entry " ++ index.toText ++ " is " ++
      (if credential.statusPurpose = .suspension then encode "suspended" else encode "revoked")⟩
  | .ok false => .ok ⟨true, false, .ok, "entry " ++ index.toText ++ " is active"⟩

/-- `checkStatus`, for a credential that is an object; the minimum size is required. -/
def checkStatus (credential : StatusListCredential) (index : Number) (opts : CheckOptions)
    (nowMs : Number) : Throwing StatusCheck :=
  if !signatureOk verifier credential opts.publicKeyPem then
    failCheck .signatureInvalid "status list signature does not verify"
  else if credential.statusPurpose ≠ opts.expectedPurpose then
    failCheck .purposeMismatch ("status list purpose is \"" ++ credential.statusPurpose.text ++
      "\", expected \"" ++ opts.expectedPurpose.text ++ "\"")
  else if opts.expectedListId.any (credential.id ≠ ·) then
    failCheck .listMismatch ("status list id is \"" ++ credential.id ++ "\", expected \"" ++
      opts.expectedListId.getD [] ++ "\"")
  else if opts.expectedIssuer.any (credential.issuer ≠ ·) then
    failCheck .issuerMismatch ("status list issuer is \"" ++ credential.issuer ++ "\", expected \"" ++
      opts.expectedIssuer.getD [] ++ "\"")
  else
    let till := verifier.dateParse credential.validUntil
    let since := verifier.dateParse credential.validFrom
    if till.isNaN || since.isNaN then
      failCheck .malformed "validFrom/validUntil is not a parseable timestamp"
    else if till ≤ since then failCheck .malformed "validFrom is not before validUntil"
    else if nowMs < since then
      failCheck .statusListNotYetValid ("status list is not valid until " ++ credential.validFrom)
    else if till ≤ nowMs then
      failCheck .statusListExpired ("status list expired at " ++ credential.validUntil ++
        " — treat as unavailable, not as \"not revoked\"")
    else
      match Bitstring.decode verifier.zlib credential.encodedList with
      | .error err => do failCheck .malformed (← errText err)
      | .ok bits =>
        if ((bits.length : ℤ) : Number) ≠ credential.entries then
          failCheck .malformed ("declared entries (" ++ credential.entries.toText ++
            ") != decoded bitstring length (" ++ natText bits.length ++ ")")
        else if bits.length < minimumEntries then
          failCheck .statusListLengthError ("status list has " ++ natText bits.length ++
            " entries, below the " ++ natText minimumEntries ++ " minimum")
        else readEntry credential bits index

end Check
end Vaduno.Revocation
