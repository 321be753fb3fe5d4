import Vaduno.Transparency.Checkpoint
import Vaduno.Transparency.ProofSoundness

/-! A witness of one log: it cosigns a checkpoint only where the log proves that its tree grew from
the last one this witness put its name to. The retained state is swapped before it is persisted, and
requests wait for each other in a queue. -/
namespace Vaduno.Transparency
open Ecma

def cosigHeader : JsString := "cosignature/v1\n"
def maxTimestamp : ℤ := 2 ^ 63 - 1

/-- A 64-bit big-endian number. -/
def uint64BE (n : ℕ) : Bytes := (List.range 8).map fun i => (n / 256 ^ (7 - i)).toUInt8

structure CosignatureRecord where
  name : JsString
  line : JsString
  timestamp : Number
  deriving DecidableEq

structure WitnessIdentity where
  name : JsString
  privateKeyPem : JsString
  publicKeyPem : JsString

/-- The bytes a witness signs. -/
def cosignaturePayload (body : JsString) (timestamp : Number) : Throwing Bytes :=
  if body.getLast? ≠ some 10 then checkpointError "checkpoint body must end with a newline"
  else if !timestamp.isSafeInteger || decide (timestamp < 0) then
    checkpointError ("invalid cosignature timestamp: " ++ timestamp.toText)
  else .ok (utf8 (cosigHeader ++ "time " ++ timestamp.toText ++ "\n" ++ body))

def encodeTimestamp (timestamp : Number) : Throwing Bytes :=
  let v := timestamp.toInt
  if v < 0 ∨ maxTimestamp < v then
    checkpointError ("cosignature timestamp out of range: " ++ timestamp.toText)
  else .ok (uint64BE v.toNat)

section Crypto
variable (crypto : Crypto)

/-- `nowSeconds` is the clock, in whole seconds. -/
def cosignCheckpoint (parsed : ParsedNote) (identity : WitnessIdentity) (timestamp : Option Number)
    (nowSeconds : Number) : Throwing CosignatureRecord := do
  let timestamp := timestamp.getD nowSeconds
  let payload ← cosignaturePayload parsed.body timestamp
  let sig ← crypto.edSign payload identity.privateKeyPem
  let raw ← rawEd25519PublicKey crypto identity.publicKeyPem
  let blob := (← encodeTimestamp timestamp) ++ sig
  let line ← signatureLine identity.name (keyId crypto identity.name sigTypeCosignatureV1 raw) blob
  return ⟨identity.name, line, timestamp⟩

structure LastCosigned where
  treeSize : Number
  rootHash : JsString
  /-- Covers the whole signed text, extension lines included. -/
  bodyHash : JsString
  deriving DecidableEq

structure CosigningWitnessState where
  origin : JsString
  logPublicKeyPem : JsString
  logKeyName : JsString
  lastCosigned : Option LastCosigned
  deriving DecidableEq

def bodyHashOf (body : JsString) : JsString := (crypto.sha256 (utf8 body)).hex

inductive CosignRefusal
  | malformedNote
  | wrongOrigin
  | logSignatureInvalid
  | treeShrank
  | rootChangedWithoutGrowth
  | bodyChangedWithoutGrowth
  | consistencyProofMissing
  | consistencyProofInvalid
  deriving DecidableEq

inductive CosignResult
  | ok (cosignature : CosignatureRecord) (state : CosigningWitnessState)
  | refused (code : CosignRefusal) (message : JsString)
  deriving DecidableEq

/-- Why a checkpoint may not follow the last one cosigned. -/
def contradiction (prev : LastCosigned) (parsed : ParsedNote) (proof : Option ConsistencyProof) :
    Option (CosignRefusal × JsString) :=
  let cp := parsed.checkpoint
  if cp.treeSize < prev.treeSize then
    some (.treeShrank, "tree shrank from " ++ prev.treeSize.toText ++ " to " ++ cp.treeSize.toText ++
      " (history truncated)")
  else if cp.treeSize = prev.treeSize then
    if cp.rootHash ≠ prev.rootHash then
      some (.rootChangedWithoutGrowth,
        "same tree size but a different root — the log is showing two histories")
    else if bodyHashOf crypto parsed.body ≠ prev.bodyHash then
      some (.bodyChangedWithoutGrowth,
        "same tree size and root but a different checkpoint body (extension lines differ)")
    else none
  else if 0 < prev.treeSize then
    match proof with
    | none =>
      some (.consistencyProofMissing,
        "no consistency proof for " ++ prev.treeSize.toText ++ " -> " ++ cp.treeSize.toText)
    | some proof =>
      if proof.first ≠ prev.treeSize ∨ proof.second ≠ cp.treeSize ∨
          verifyConsistency crypto.sha256 prev.rootHash cp.rootHash proof = false then
        some (.consistencyProofInvalid, "consistency proof does not prove " ++ prev.treeSize.toText ++
          " -> " ++ cp.treeSize.toText ++ " append-only")
      else none
  -- the empty tree is a prefix of every tree
  else none

structure CosignRequest where
  note : JsString
  proof : Option ConsistencyProof
  timestamp : Option Number
  /-- The clock when the request is worked on. -/
  nowSeconds : Number

def witnessCosign (state : CosigningWitnessState) (identity : WitnessIdentity)
    (request : CosignRequest) : Throwing CosignResult :=
  match parseNote request.note with
  | .error err => return .refused .malformedNote (← errText err)
  | .ok parsed =>
    let cp := parsed.checkpoint
    if cp.origin ≠ state.origin then
      return .refused .wrongOrigin
        ("checkpoint origin \"" ++ cp.origin ++ "\" != witnessed log \"" ++ state.origin ++ "\"")
    else if !verifyNoteSignature crypto parsed state.logKeyName state.logPublicKeyPem sigTypeEd25519 then
      return .refused .logSignatureInvalid
        "checkpoint is not signed by the log key this witness follows"
    else
      match state.lastCosigned.bind (contradiction crypto · parsed request.proof) with
      | some (code, message) => return .refused code message
      | none => do
        let cosignature ← cosignCheckpoint crypto parsed identity request.timestamp request.nowSeconds
        return .ok cosignature { state with
          lastCosigned := some ⟨cp.treeSize, cp.rootHash, bodyHashOf crypto parsed.body⟩ }

/-! ### The serialized witness and its storage -/

/-- A cosignature that was returned, and for what. -/
structure Issued where
  parsed : ParsedNote
  cosignature : CosignatureRecord

structure WitnessSystem where
  /-- The state of the running process. -/
  state : CosigningWitnessState
  /-- Requests whose turn has not come. -/
  queue : List CosignRequest
  /-- The request whose new state is being persisted. -/
  committing : Option Issued
  /-- The last state whose persisting succeeded. -/
  persisted : CosigningWitnessState
  issued : List Issued

inductive WitnessEvent
  | submitted (request : CosignRequest)
  | refused (code : CosignRefusal) (message : JsString)
  /-- Signing itself threw. -/
  | threw (thrown : Thrown)
  | signed
  | cosigned
  | commitFailed
  | restarted

/-- What can happen to a witness. A request is worked on when the one before it has settled. -/
inductive WitnessStep (identity : WitnessIdentity) :
    WitnessSystem → WitnessEvent → WitnessSystem → Prop
  | submitted {s} (request : CosignRequest) :
      WitnessStep identity s (.submitted request) { s with queue := s.queue ++ [request] }
  | refused {s request rest code message} (next : s.queue = request :: rest) (idle : s.committing = none)
      (answer : witnessCosign crypto s.state identity request = .ok (.refused code message)) :
      WitnessStep identity s (.refused code message) { s with queue := rest }
  | threw {s request rest thrown} (next : s.queue = request :: rest) (idle : s.committing = none)
      (answer : witnessCosign crypto s.state identity request = .error thrown) :
      WitnessStep identity s (.threw thrown) { s with queue := rest }
  | signed {s request rest parsed cosignature state} (next : s.queue = request :: rest)
      (idle : s.committing = none) (note : parseNote request.note = .ok parsed)
      (answer : witnessCosign crypto s.state identity request = .ok (.ok cosignature state)) :
      WitnessStep identity s .signed
        { s with state := state, queue := rest, committing := some ⟨parsed, cosignature⟩ }
  | cosigned {s issued} (busy : s.committing = some issued) :
      WitnessStep identity s .cosigned
        { s with committing := none, persisted := s.state, issued := s.issued ++ [issued] }
  | commitFailed {s issued} (busy : s.committing = some issued) :
      WitnessStep identity s .commitFailed { s with committing := none }
  | restarted {s} : WitnessStep identity s .restarted
      { s with state := s.persisted, queue := [], committing := none }

inductive WitnessRun (identity : WitnessIdentity) (init : WitnessSystem) :
    List WitnessEvent → WitnessSystem → Prop
  | start : WitnessRun identity init [] init
  | step {events s event s'} (earlier : WitnessRun identity init events s)
      (last : WitnessStep crypto identity s event s') : WitnessRun identity init (events ++ [event]) s'

end Crypto

/-- A witness that has just been started on a state. -/
def WitnessSystem.fresh (state : CosigningWitnessState) : WitnessSystem where
  state := state
  queue := []
  committing := none
  persisted := state
  issued := []

end Vaduno.Transparency
