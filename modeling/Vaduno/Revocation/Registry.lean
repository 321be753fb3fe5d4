import Vaduno.Revocation.Store
import Vaduno.Enforce.StoreSteps

/-! The revocation registry: what its operations do between two awaits. Mutations of one instance
take turns in its queue; publishing and checking do not wait for them. -/
namespace Vaduno.Revocation
open Ecma Ledger

/-- What a registry awaits, and the two fields of an instance that concurrent publishes share. -/
inductive RegistryOp
  | enter (registry : ℕ)
  | leave (registry : ℕ)
  /-- `this.now().toISOString()`. -/
  | nowIso
  | append (type : EntryType) (data : JsValue) (agentId : Option JsString)
  | allocate (mandateId : JsString) (agentId : Option JsString) (capacity : Number)
  | indexOf (mandateId : JsString)
  | agentOf (mandateId : JsString)
  | mandatesFor (agentId : JsString)
  | revoke (record : RevocationRecord)
  | clear (mandateId : JsString)
  | get (mandateId : JsString)
  | blockAgent (agentId : JsString) (block : AgentBlock)
  | getAgentBlock (agentId : JsString)
  | unblockAgent (agentId : JsString)
  | isAgentBlocked (agentId : JsString)
  | snapshot
  /-- Compares a version with the floor and reserves it; answers the floor that refuses it. -/
  | reserveVersion (registry : ℕ) (version : Number)
  | notePublished (registry : ℕ) (version : Number)
  | releaseVersion (registry : ℕ) (version : Number)
  /-- `validFrom` and `validUntil`, from the clock and the time to live. -/
  | validity
  | checkedSign (payload : Bytes)

@[reducible] def RegistryOp.Answer : RegistryOp → Type
  | nowIso | checkedSign _ => Throwing JsString
  | allocate .. | indexOf _ => Throwing (Option ℕ)
  | agentOf _ => Throwing (Option JsString)
  | mandatesFor _ => Throwing (List JsString)
  | get _ => Throwing (Option RevocationRecord)
  | getAgentBlock _ => Throwing (Option AgentBlock)
  | isAgentBlocked _ => Throwing Bool
  | snapshot => Throwing RegistrySnapshot
  | reserveVersion .. => Option Number
  | validity => Throwing (JsString × JsString)
  | append .. | revoke _ | clear _ | blockAgent .. | unblockAgent _ => Throwing Unit
  | enter _ | leave _ | notePublished .. | releaseVersion .. => Unit

abbrev RegistryProgram : Type → Type := Async RegistryOp.Answer Thrown

/-- One instance and what it was constructed with. -/
structure RevocationRegistry where
  /-- Which instance it is: its queue and its versions are its own. -/
  name : ℕ
  issuer : JsString
  listId : JsString
  /-- Whether there is a signer. -/
  signs : Bool
  /-- Whether there is a ledger. -/
  ledger : Bool
  /-- Entry capacity, a positive multiple of 8. -/
  entries : Number
  zlib : Zlib

structure RevokeOptions where
  reason : Option JsString
  byWhom : Option JsString
  purpose : Option StatusPurpose

/-- What a kill reports, next to its fan-out. -/
structure RevocationResult where
  record : RevocationRecord
  /-- The list was full: no published list shows this kill. -/
  unpublishable : Bool
  alreadyRevoked : Bool

def nullable : Option JsString → JsValue
  | none => .null
  | some text => .string text

/-- `x ? x : undefined`, for text that may be missing. -/
def truthy (text : Option JsString) : Option JsString := text.filter (· ≠ [])

namespace RevocationRegistry
variable (registry : RevocationRegistry)

abbrev ask (op : RegistryOp) : RegistryProgram op.Answer := Async.perform op

/-- `this.run(fn)`. -/
def run (p : RegistryProgram α) : RegistryProgram α :=
  Async.bracket (.enter registry.name) (.leave registry.name) p

/-- `await this.opts.ledger?.append(...)`. -/
def audit (type : EntryType) (data : JsValue) (agentId : Option JsString) : RegistryProgram Unit :=
  if registry.ledger then Async.orThrow (ask (.append type data agentId)) else return ()

def indexData (mandateId agentId : JsString) (index : ℕ) : JsValue :=
  .object [("mandateId", .string mandateId), ("agentId", .string agentId),
    ("statusListIndex", .number (index : ℤ))]

def assignIndex (mandateId agentId : JsString) : RegistryProgram ℕ := registry.run do
  match ← Async.orThrow (ask (.allocate mandateId (some agentId) registry.entries)) with
  | none => throw (.error ("status list is full (" ++ registry.entries.toText ++
      " entries) — publish a new list"))
  | some index =>
    registry.audit .mandateIndexAssigned (indexData mandateId agentId index) (some agentId)
    return index

def revokedData (record : RevocationRecord) : JsValue :=
  .object ([(encode "mandateId", .string record.mandateId),
    (encode "statusListIndex", match record.index with | none => .null | some index => .number index),
    (encode "purpose", .string record.purpose.text), (encode "reason", nullable record.reason),
    (encode "by", nullable record.byWhom), (encode "agentId", nullable record.agentId)] ++
    if record.index = none then [(encode "unpublishable", .boolean true),
      (encode "note", .string "status list full — revocation is local-only")] else [])

/-- The index a kill is recorded under: even a mandate that was never registered gets one, so that
the kill can be published. -/
def killIndex (mandateId : JsString) (agentId : Option JsString) : RegistryProgram (Option ℕ) := do
  match ← Async.orThrow (ask (.indexOf mandateId)) with
  | some index => return some index
  | none => Async.orThrow (ask (.allocate mandateId agentId registry.entries))

/-- `params.agentId ?? (await this.store.agentOf(params.mandateId)) ?? null`. -/
def killAgent (mandateId : JsString) : Option JsString → RegistryProgram (Option JsString)
  | some agentId => return some agentId
  | none => Async.orThrow (ask (.agentOf mandateId))

/-- The part of a kill that writes; a full list does not stop it. -/
def writeKill (mandateId : JsString) (agentId : Option JsString) (opts : RevokeOptions) :
    RegistryProgram RevocationResult := do
  let index ← registry.killIndex mandateId agentId
  let revokedAt ← Async.orThrow (ask .nowIso)
  let record : RevocationRecord :=
    { mandateId, index := index.map fun n : ℕ => ((n : ℤ) : Number),
      purpose := opts.purpose.getD .revocation, revokedAt, reason := opts.reason,
      byWhom := opts.byWhom, agentId }
  Async.orThrow (ask (.revoke record))
  registry.audit .mandateRevoked (revokedData record) (truthy agentId)
  return ⟨record, record.index.isNone, false⟩

/-- The authoritative kill. A mandate that is revoked for good is left as it is. -/
def killLocally (mandateId : JsString) (agentId : Option JsString) (opts : RevokeOptions) :
    RegistryProgram RevocationResult := do
  let existing ← Async.orThrow (ask (.get mandateId))
  match existing.filter (·.purpose = .revocation) with
  | some record => return ⟨record, record.index.isNone, true⟩
  | none => do
    let agentId ← killAgent mandateId agentId
    registry.writeKill mandateId agentId opts

def revokeMandate (mandateId : JsString) (opts : RevokeOptions) : RegistryProgram RevocationResult :=
  registry.run (registry.killLocally mandateId none opts)

/-- Kills the mandates of an agent one by one; a kill that fails is noted and does not stop the
rest. -/
def killAll (agentId : JsString) (opts : RevokeOptions) :
    List JsString → List RevocationResult → List (JsString × JsString) →
      RegistryProgram (List RevocationResult × List (JsString × JsString))
  | [], out, failures => return (out, failures)
  | mandateId :: rest, out, failures => do
    match ← (registry.killLocally mandateId (some agentId) opts).outcomeOf with
    | .ok result => killAll agentId opts rest (out ++ [result]) failures
    | .error err =>
      let text ← Async.settled (errText err)
      killAll agentId opts rest out (failures ++ [(mandateId, text)])

def agentRevokedData (agentId : JsString) (opts : RevokeOptions) : JsValue :=
  .object [("agentId", .string agentId), ("reason", nullable opts.reason),
    ("by", nullable opts.byWhom), ("purpose", .string (opts.purpose.getD .revocation).text)]

def partialData (agentId : JsString) (failures : List (JsString × JsString)) (revoked : ℕ) : JsValue :=
  .object [("agentId", .string agentId),
    ("failures", .array (failures.map fun failure =>
      .object [("mandateId", .string failure.1), ("error", .string failure.2)])),
    ("revoked", .number (revoked : ℤ))]

/-- The kills that did not land are named for the operator. -/
def auditPartial (agentId : JsString) (failures : List (JsString × JsString)) (revoked : ℕ) :
    RegistryProgram Unit :=
  if failures = [] then return ()
  else registry.audit .agentRevokePartial (partialData agentId failures revoked) (some agentId)

/-- The kill of an agent: the block first, which alone stops it, then its mandates. -/
def blockAndKill (agentId : JsString) (opts : RevokeOptions) :
    RegistryProgram (List RevocationResult) := do
  let blockedAt ← Async.orThrow (ask .nowIso)
  Async.orThrow (ask (.blockAgent agentId
    ⟨opts.reason, opts.byWhom, blockedAt, opts.purpose.getD .revocation⟩))
  registry.audit .agentRevoked (agentRevokedData agentId opts) (some agentId)
  let mandateIds ← Async.orThrow (ask (.mandatesFor agentId))
  let killed ← registry.killAll agentId opts mandateIds [] []
  registry.auditPartial agentId killed.2 killed.1.length
  return killed.1

def revokeAgent (agentId : JsString) (opts : RevokeOptions) :
    RegistryProgram (List RevocationResult) :=
  registry.run (registry.blockAndKill agentId opts)

/-- Lifts the suspension of a record that was read; a permanent one is refused. -/
def liftRecord (mandateId : JsString) (byWhom : Option JsString) :
    Option RevocationRecord → RegistryProgram Unit
  | none => return ()
  | some record =>
    if record.purpose ≠ .suspension then
      throw (.error ("mandate " ++ mandateId ++
        " was REVOKED (permanent), not suspended — it cannot be reinstated"))
    else do
      Async.orThrow (ask (.clear mandateId))
      registry.audit .mandateUnsuspended (.object [("mandateId", .string mandateId),
        ("by", nullable byWhom)]) (truthy record.agentId)

def unsuspendMandate (mandateId : JsString) (byWhom : Option JsString) : RegistryProgram Unit :=
  registry.run (do
    let record ← Async.orThrow (ask (.get mandateId))
    registry.liftRecord mandateId byWhom record)

/-- Lifts the suspension of an agent whose block was read; a permanent one is refused. -/
def liftBlock (agentId : JsString) (byWhom : Option JsString) :
    Option AgentBlock → RegistryProgram Unit
  | none => return ()
  | some block =>
    if block.purpose ≠ .suspension then
      throw (.error ("agent " ++ agentId ++
        " was REVOKED (permanent), not suspended — it cannot be reinstated"))
    else do
      Async.orThrow (ask (.unblockAgent agentId))
      registry.audit .agentUnblocked (.object [("agentId", .string agentId),
        ("by", nullable byWhom)]) (some agentId)

def unblockAgent (agentId : JsString) (byWhom : Option JsString) : RegistryProgram Unit :=
  registry.run (do
    let block ← Async.orThrow (ask (.getAgentBlock agentId))
    registry.liftBlock agentId byWhom block)

/-! ### Publishing -/

/-- Sets the bits of the records of one purpose, and counts those without an index. -/
def setRecords (purpose : StatusPurpose) :
    List RevocationRecord → Bitstring × ℕ → Throwing (Bitstring × ℕ)
  | [], list => .ok list
  | record :: rest, (bits, unpublishable) =>
    if record.purpose ≠ purpose then setRecords purpose rest (bits, unpublishable)
    else
      match record.index with
      | none => setRecords purpose rest (bits, unpublishable + 1)
      | some index => do setRecords purpose rest (← bits.set index, unpublishable)

/-- Sets the bits of a blocked agent's mandates. -/
def setMandates : List JsString → Bitstring × ℕ → RegistryProgram (Bitstring × ℕ)
  | [], list => return list
  | mandateId :: rest, (bits, unpublishable) => do
    match ← Async.orThrow (ask (.indexOf mandateId)) with
    | none => setMandates rest (bits, unpublishable + 1)
    | some index =>
      let bits ← Async.settled (bits.set (index : ℤ))
      setMandates rest (bits, unpublishable)

def setAgents (purpose : StatusPurpose) :
    List JsString → Bitstring × ℕ → RegistryProgram (Bitstring × ℕ)
  | [], list => return list
  | agentId :: rest, list => do
    let block ← Async.orThrow (ask (.getAgentBlock agentId))
    if block.any (·.purpose = purpose) then
      let mandateIds ← Async.orThrow (ask (.mandatesFor agentId))
      let list ← setMandates mandateIds list
      setAgents purpose rest list
    else setAgents purpose rest list

/-- `publishStatusListWith`. -/
def publishStatusListWith (bits : Bitstring) (purpose : StatusPurpose) (version : Number) :
    RegistryProgram StatusListCredential :=
  if !version.isSafeInteger || decide (version < 0) then
    throw (.error ("invalid status list version: " ++ version.toText))
  else do
    let valid ← Async.orThrow (ask .validity)
    let unsigned : UnsignedList :=
      { id := registry.listId, issuer := registry.issuer, statusPurpose := purpose,
        encodedList := bits.encode registry.zlib, entries := (bits.length : ℤ), version,
        validFrom := valid.1, validUntil := valid.2 }
    let bytes ← Async.settled (payload unsigned)
    let signature ← Async.orThrow (ask (.checkedSign bytes))
    return { unsigned with signature }

/-- What a publish does with its version reserved. -/
def publishReserved (version : Number) (purpose : StatusPurpose) :
    RegistryProgram StatusListCredential := do
  let snap ← Async.orThrow (ask .snapshot)
  let bits ← Async.settled (Bitstring.ofEntries registry.entries)
  let list ← Async.settled (setRecords purpose snap.records (bits, 0))
  let list ← setAgents purpose snap.blockedAgents list
  let credential ← registry.publishStatusListWith list.1 purpose version
  let _ ← ask (.notePublished registry.name version)
  registry.audit .statusListPublished (.object [("listId", .string credential.id),
    ("version", .number credential.version), ("purpose", .string purpose.text),
    ("revokedCount", .number (list.1.setIndices.length : ℤ)),
    ("unpublishable", .number (list.2 : ℤ)),
    ("validUntil", .string credential.validUntil)]) none
  return credential

/-- `publish`: outside of the queue, so that a slow signer never delays a kill. -/
def publish (version : Number) (purpose : StatusPurpose) : RegistryProgram StatusListCredential :=
  if !registry.signs then
    throw (.error "RevocationRegistry was constructed without privateKeyPem or signer; cannot publish")
  else do
    match ← ask (.reserveVersion registry.name version) with
    | some floor => throw (.error ("status list version must strictly increase: " ++
        version.toText ++ " <= " ++ floor.toText))
    | none => do
      let outcome ← (registry.publishReserved version purpose).outcomeOf
      let _ ← ask (.releaseVersion registry.name version)
      Async.settled outcome

end RevocationRegistry

/-- The verdict on a record, if there is one. -/
def verdictOn : Option RevocationRecord → RevocationVerdict
  | none => .allowed
  | some record =>
    if record.purpose = .suspension then .refused "MANDATE_SUSPENDED" (describe record "suspended")
    else .refused "MANDATE_REVOKED" (describe record "revoked")
where
  describe (record : RevocationRecord) (state : JsString) : JsString :=
    "mandate " ++ record.mandateId ++ " was " ++ state ++ " at " ++ record.revokedAt ++
      (match truthy record.reason with
      | none => []
      | some reason => " (" ++ reason ++ ")")

/-- What `createRegistryCheck` looks up, before its `catch`. -/
def lookup (intent : PaymentIntent) : RegistryProgram RevocationVerdict := do
  if ← Async.orThrow (RevocationRegistry.ask (.isAgentBlocked intent.agentId)) then
    return .refused "AGENT_REVOKED" ("agent \"" ++ intent.agentId ++ "\" has been revoked")
  else
    match truthy intent.mandateId with
    | none => return .allowed
    | some mandateId => return verdictOn (← Async.orThrow (RevocationRegistry.ask (.get mandateId)))

/-- The denial of a check that could not find out. -/
def checkFailed (err : Thrown) : RegistryProgram RevocationVerdict := do
  let text ← Async.settled (errText err)
  return .refused "REVOCATION_CHECK_FAILED"
    ("revocation status could not be determined (fail closed): " ++ text)

/-- `createRegistryCheck(registry)`, which reads the store as it is. -/
def registryCheck (intent : PaymentIntent) : RegistryProgram RevocationVerdict :=
  tryCatch (lookup intent) checkFailed

end Vaduno.Revocation
