import Vaduno.Mandate.Pq
import Vaduno.Transparency.Witness

/-! Whether a checkpoint carries the cosignatures of enough independent witnesses. Independence is
counted by keys: names that share one are meant to be one party. -/
namespace Vaduno.Transparency
open Ecma

def timestampBytes : ℕ := 8
def ed25519SigBytes : ℕ := 64
def mlDsa44SignatureBytes : ℕ := 2420

structure KnownWitness where
  name : JsString
  /-- The Ed25519 key, absent only where there is an ML-DSA-44 key. -/
  publicKeyPem : Option JsString
  mlDsa44PublicKeyPem : Option JsString
  deriving DecidableEq

inductive CosignatureAlg
  | ed25519
  | mlDsa44
  deriving DecidableEq

structure VerifiedCosignature where
  name : JsString
  timestamp : Number
  alg : CosignatureAlg
  deriving DecidableEq

/-- Verification of an ML-DSA-44 signature: message, key and signature. -/
abbrev MlDsa44Verify := Bytes → JsString → Bytes → Bool

structure CosignatureVerifyOptions where
  maxClockSkewSeconds : Option Number
  maxAgeSeconds : Option Number
  /-- What the clock reads. -/
  nowSeconds : Number
  /-- The ML-DSA-44 capability, absent where the runtime has none. -/
  pq : Option MlDsa44Verify

structure LogBinding where
  origin : JsString
  logPublicKeyPem : JsString
  logKeyName : Option JsString

structure TimeBounds where
  now : Number
  skew : Number
  maxAge : Number
  deriving DecidableEq

def timestampAcceptable (timestamp : Number) (bounds : TimeBounds) : Bool :=
  !decide (bounds.now + bounds.skew < timestamp) && !decide (timestamp < bounds.now - bounds.maxAge)

/-- The timestamp and the signature in a cosignature of so many bytes. -/
def splitBlob (signature : Bytes) (sigBytes : ℕ) : Option (Number × Bytes) :=
  if signature.length ≠ timestampBytes + sigBytes then none
  else
    let tsRaw := readBE (signature.take timestampBytes)
    if 2 ^ 53 - 1 < tsRaw then none
    else some (((tsRaw : ℤ) : Number), signature.drop timestampBytes)

/-- The bytes that an ML-DSA-44 cosignature signs. -/
def mlDsa44CosignaturePayload (cosignerName : JsString) (timestamp : Number) (checkpoint : Checkpoint) :
    Throwing Bytes :=
  let label := utf8 "subtree/v1\n" ++ [0]
  let name := utf8 cosignerName
  let origin := utf8 checkpoint.origin
  if name.length < 1 ∨ 255 < name.length then checkpointError "cosigner name must be 1..255 bytes"
  else if origin.length < 1 ∨ 255 < origin.length then
    checkpointError "log origin must be 1..255 bytes"
  else if !checkpoint.treeSize.isSafeInteger || decide (checkpoint.treeSize < 0) then
    checkpointError ("invalid tree size: " ++ checkpoint.treeSize.toText)
  else if !timestamp.isSafeInteger || decide (timestamp < 0) then
    checkpointError ("invalid cosignature timestamp: " ++ timestamp.toText)
  else
    match readHash checkpoint.rootHash with
    | none => checkpointError "rootHash must be 64 lowercase hex chars (32-byte SHA-256)"
    | some root => .ok (label ++ [name.length.toUInt8] ++ name ++ uint64BE timestamp.toInt.toNat ++
        [origin.length.toUInt8] ++ origin ++ uint64BE 0 ++ uint64BE checkpoint.treeSize.toInt.toNat ++
        root.bytes)

section Crypto
variable (crypto : Crypto)

def verifyOneEd25519Cosignature (parsed : ParsedNote) (witness : KnownWitness) (bounds : TimeBounds) :
    Option VerifiedCosignature := do
  let pem ← witness.publicKeyPem
  let raw ← (rawEd25519PublicKey crypto pem).toOption
  let key ← (crypto.createPublicKey pem).toOption
  let expectedId := keyId crypto witness.name sigTypeCosignatureV1 raw
  parsed.signatures.findSome? fun sig =>
    if sig.name ≠ witness.name ∨ sig.keyId ≠ expectedId then none
    else
      match splitBlob sig.signature ed25519SigBytes with
      | none => none
      | some (timestamp, rawSig) =>
        if !timestampAcceptable timestamp bounds then none
        else
          match cosignaturePayload parsed.body timestamp with
          | .error _ => none
          | .ok payload =>
            if crypto.edVerify payload key rawSig then some ⟨witness.name, timestamp, .ed25519⟩
            else none

def verifyOneMlDsa44Cosignature (parsed : ParsedNote) (witness : KnownWitness) (bounds : TimeBounds)
    (pq : MlDsa44Verify) : Option VerifiedCosignature := do
  let pem ← witness.mlDsa44PublicKeyPem
  let raw ← (Mandate.rawMlDsa44PublicKey pem).toOption
  let expectedId := keyId crypto witness.name sigTypeCosignatureMlDsa44 raw
  parsed.signatures.findSome? fun sig =>
    if sig.name ≠ witness.name ∨ sig.keyId ≠ expectedId then none
    else
      match splitBlob sig.signature mlDsa44SignatureBytes with
      | none => none
      | some (timestamp, rawSig) =>
        if !timestampAcceptable timestamp bounds then none
        else
          match mlDsa44CosignaturePayload witness.name timestamp parsed.checkpoint with
          | .error _ => none
          | .ok payload => if pq payload pem rawSig then some ⟨witness.name, timestamp, .mlDsa44⟩ else none

end Crypto

/-- The first entry of every name. -/
def firstByName : List KnownWitness → List KnownWitness
  | [] => []
  | w :: rest => w :: (firstByName rest).filter (·.name ≠ w.name)

def CosignatureVerifyOptions.bounds (opts : CosignatureVerifyOptions) : Option TimeBounds :=
  let skew := opts.maxClockSkewSeconds.getD 300
  let maxAge := opts.maxAgeSeconds.getD .posInf
  if !opts.nowSeconds.isFinite then none
  else if !skew.isFinite || decide (skew < 0) then none
  else if maxAge.isNaN || decide (maxAge < 0) then none
  else some ⟨opts.nowSeconds.floor, skew, maxAge⟩

section Crypto
variable (crypto : Crypto)

def verifyCosignatures (note : JsString) (witnesses : List KnownWitness)
    (opts : CosignatureVerifyOptions) : List VerifiedCosignature :=
  match parseNote note, opts.bounds with
  | .ok parsed, some bounds => (firstByName witnesses).flatMap fun witness =>
      (verifyOneEd25519Cosignature crypto parsed witness bounds).toList ++
        (opts.pq.bind (verifyOneMlDsa44Cosignature crypto parsed witness bounds)).toList
  | _, _ => []

def keyFingerprints (w : KnownWitness) : List JsString :=
  (w.publicKeyPem.bind fun pem => (rawEd25519PublicKey crypto pem).toOption.map fun raw =>
      "ed25519:" ++ hex raw).toList ++
    (w.mlDsa44PublicKeyPem.bind fun pem => (Mandate.rawMlDsa44PublicKey pem).toOption.map fun raw =>
      "ml-dsa-44:" ++ hex raw).toList

/-- The parties found so far. -/
structure Parties where
  fpToParty : JsString → Option ℕ
  nameToParty : List (JsString × ℕ)
  nextParty : ℕ

def Parties.none : Parties := ⟨fun _ => .none, [], 0⟩

/-- One step of the grouping: a name joins the party of the first of its keys that has one. -/
def Parties.add (parties : Parties) (w : KnownWitness) : Parties :=
  let fps := keyFingerprints crypto w
  if fps = [] then parties
  else
    let existing := fps.findSome? parties.fpToParty
    let party := existing.getD parties.nextParty
    { fpToParty := fun fp => if fp ∈ fps then some party else parties.fpToParty fp
      nameToParty := parties.nameToParty ++ [(w.name, party)]
      nextParty := if existing.isSome then parties.nextParty else parties.nextParty + 1 }

def groupParties (unique : List KnownWitness) : Parties := unique.foldl (Parties.add crypto) .none

def Parties.partyOf (parties : Parties) (name : JsString) : Option ℕ := parties.nameToParty.lookup name

def Parties.count (parties : Parties) : ℕ := (parties.nameToParty.map Prod.snd).dedup.length

/-- The names of every party that has more than one, sorted. -/
def Parties.duplicateKeys (parties : Parties) : List JsString :=
  ((List.range parties.nextParty).flatMap fun party =>
    let names := (parties.nameToParty.filter (·.2 = party)).map Prod.fst
    if 1 < names.length then names else []).mergeSort fun a b => !decide (b < a)

structure QuorumResult where
  ok : Bool
  required : Number
  verified : List VerifiedCosignature
  missing : List JsString
  duplicateKeys : List JsString
  checkpoint : Option Checkpoint
  message : JsString

def joinNames : List JsString → JsString
  | [] => []
  | [last] => last
  | name :: rest => name ++ ", " ++ joinNames rest

def checkCosignatureQuorum (note : JsString) (witnesses : List KnownWitness) (k : Number)
    (binding : LogBinding) (opts : CosignatureVerifyOptions) : Throwing QuorumResult :=
  let unique := firstByName witnesses
  let names := unique.map KnownWitness.name
  let parties := groupParties crypto unique
  let duplicateKeys := parties.duplicateKeys
  let fail := fun message : JsString =>
    (.ok ⟨false, k, [], names, duplicateKeys, none, message⟩ : Throwing QuorumResult)
  if binding.origin = [] then fail "a LogBinding with an origin is required"
  else if binding.logPublicKeyPem = [] then fail "a LogBinding with the log's public key is required"
  else if !k.isSafeInteger || decide (k < 1) then fail ("invalid quorum threshold: " ++ k.toText)
  else if ((parties.count : ℤ) : Number) < k then
    fail ("quorum of " ++ k.toText ++ " is unreachable: only " ++ natText parties.count ++
      " independent witness key(s) configured" ++
      (if 0 < duplicateKeys.length then
        " (these names share a key and count once: " ++ joinNames duplicateKeys ++ ")" else []))
  else
    match parseNote note with
    | .error err => do fail ("checkpoint could not be parsed: " ++ (← errText err))
    | .ok parsed =>
      let logName := binding.logKeyName.getD binding.origin
      if parsed.checkpoint.origin ≠ binding.origin then
        fail ("checkpoint origin \"" ++ parsed.checkpoint.origin ++ "\" != expected \"" ++
          binding.origin ++ "\"")
      else if !verifyNoteSignature crypto parsed logName binding.logPublicKeyPem sigTypeEd25519 then
        fail ("checkpoint is not signed by the expected log key (\"" ++ logName ++ "\")")
      else
        let verified := verifyCosignatures crypto note unique opts
        let seenNames := verified.map VerifiedCosignature.name
        let seenParties := (verified.filterMap fun v => parties.partyOf v.name).dedup
        let missing := names.filter (· ∉ seenNames)
        let ok := decide (k ≤ ((seenParties.length : ℤ) : Number))
        let dupeNote := if 0 < duplicateKeys.length then
          " — note: " ++ joinNames duplicateKeys ++ " share a key and count as one party" else []
        .ok ⟨ok, k, verified, missing, duplicateKeys, if ok then some parsed.checkpoint else none,
          if ok then natText seenParties.length ++ " of " ++ k.toText ++
            " required independent witness cosignatures verified" ++ dupeNote
          else "only " ++ natText seenParties.length ++ " of " ++ k.toText ++
            " required independent witness cosignatures verified (missing: " ++
            (if missing = [] then encode "none" else joinNames missing) ++ ")" ++ dupeNote⟩

inductive AnchorStrength
  | unwitnessed
  | witnessed
  | witnessedPq
  deriving DecidableEq

structure AnchorAssessment where
  strength : AnchorStrength
  witnessedAt : Option Number
  classical : QuorumResult
  pq : QuorumResult

/-- The witnesses with an ML-DSA-44 key, stripped of all else. -/
def pqWitnesses (witnesses : List KnownWitness) : List KnownWitness :=
  (witnesses.filter (·.mlDsa44PublicKeyPem.isSome)).map fun w => ⟨w.name, none, w.mlDsa44PublicKeyPem⟩

def earliest (verified : List VerifiedCosignature) : Option Number :=
  verified.foldl (fun least v =>
    match least with
    | none => some v.timestamp
    | some t => if v.timestamp < t then some v.timestamp else some t) none

/-- The clock is read again, as `laterSeconds`, for the second quorum. -/
def assessCheckpointAnchor (note : JsString) (witnesses : List KnownWitness) (k : Number)
    (binding : LogBinding) (opts : CosignatureVerifyOptions) (laterSeconds : Number) :
    Throwing AnchorAssessment := do
  let classical ← checkCosignatureQuorum crypto note witnesses k binding opts
  let pq ← checkCosignatureQuorum crypto note (pqWitnesses witnesses) k binding
    { opts with nowSeconds := laterSeconds }
  if pq.ok then
    return ⟨.witnessedPq, earliest (pq.verified.filter (·.alg = .mlDsa44)), classical, pq⟩
  else if classical.ok then return ⟨.witnessed, earliest classical.verified, classical, pq⟩
  else return ⟨.unwitnessed, none, classical, pq⟩

end Crypto
end Vaduno.Transparency
