import Vaduno.Async.Pool
import Vaduno.Enforce.StoreSteps
import Vaduno.Postgres.SpendLimiter
import Vaduno.Revocation.StatusBits

/-! The store of a registry as tables of a database that any number of processes share: what each
method does between two statements. Allocations wait for one advisory lock; nothing else does. -/
namespace Vaduno.Postgres
open Ecma Enforce Revocation

/-- A row of `vaduno_revocation_index`. A row that a link wrote has no index yet. -/
structure IndexRow where
  mandateId : JsString
  idx : Option ℕ
  agentId : Option JsString

/-- A row of `vaduno_revocation_record`. -/
structure RecordRow where
  mandateId : JsString
  idx : Option ℤ
  purpose : StatusPurpose
  revokedAt : JsString
  reason : Option JsString
  revokedBy : Option JsString
  agentId : Option JsString

structure RevocationTables where
  index : Keyed IndexRow.mandateId
  records : Keyed RecordRow.mandateId
  blocks : Keyed (Prod.fst : JsString × AgentBlock → JsString)

/-- The statement that an allocation's transaction ends with. -/
inductive IndexWrite
  /-- `UPDATE … SET agent_id = $2 WHERE mandate_id = $1`. -/
  | updateAgent (mandateId agentId : JsString)
  /-- `INSERT … ON CONFLICT (mandate_id) DO UPDATE SET idx = COALESCE(…), agent_id = COALESCE(…)`. -/
  | insertIndex (mandateId : JsString) (idx : ℕ) (agentId : Option JsString)

namespace RevocationTables
variable (t : RevocationTables)

def empty : RevocationTables := ⟨.empty, .empty, .empty⟩

def idxOf (mandateId : JsString) : Option ℕ := (t.index.find mandateId).bind (·.idx)

def agentOf (mandateId : JsString) : Option JsString := (t.index.find mandateId).bind (·.agentId)

/-- `SELECT MAX(idx)`. -/
def maxIdx : Option ℕ := (t.index.rows.filterMap (·.idx)).max?

/-- `SELECT mandate_id … WHERE agent_id = $1`. -/
def mandatesFor (agentId : JsString) : List JsString :=
  (t.index.rows.filter (·.agentId = some agentId)).map (·.mandateId)

def putIndex (row : IndexRow) : RevocationTables := { t with index := t.index.put row }

/-- The tables with a transaction's last statement applied, unless an index would be there twice. -/
def write : IndexWrite → Option RevocationTables
  | .updateAgent mandateId agentId =>
    match t.index.find mandateId with
    | none => some t
    | some row => some (t.putIndex { row with agentId := agentId })
  | .insertIndex mandateId idx agentId =>
    let kept := (t.idxOf mandateId).getD idx
    if t.index.rows.any fun row => row.mandateId ≠ mandateId ∧ row.idx = some kept then none
    else some (t.putIndex ⟨mandateId, kept, agentId.or (t.agentOf mandateId)⟩)

/-- `INSERT … VALUES ($1, NULL, $2) ON CONFLICT (mandate_id) DO UPDATE SET agent_id = …`. -/
def linkIndex (mandateId agentId : JsString) : RevocationTables :=
  t.putIndex ⟨mandateId, t.idxOf mandateId, agentId⟩

def linkRecord (mandateId agentId : JsString) : RevocationTables :=
  { t with records :=
      t.records.alter mandateId (fun row => { row with agentId := agentId }) (fun _ => rfl) }

def upsertRecord (row : RecordRow) : RevocationTables := { t with records := t.records.put row }

def deleteRecord (mandateId : JsString) : RevocationTables :=
  { t with records := t.records.erase mandateId }

/-- `INSERT … ON CONFLICT (agent_id) DO UPDATE … WHERE vaduno_agent_block.purpose <> 'revocation'`. -/
def upsertBlock (agentId : JsString) (block : AgentBlock) : RevocationTables :=
  if (t.blocks.find agentId).any (·.2.purpose = .revocation) then t
  else { t with blocks := t.blocks.put (agentId, block) }

def deleteBlock (agentId : JsString) : RevocationTables :=
  { t with blocks := t.blocks.erase agentId }

end RevocationTables

/-! ### The methods -/

/-- How a write ends. One that fails may have taken effect all the same, which its caller cannot see. -/
inductive Written
  | done
  | failed (thrown : Thrown) (landed : Bool)

namespace Written

def landed : Written → Bool
  | done => true
  | failed _ landed => landed

def outcome : Written → Throwing Unit
  | done => .ok ()
  | failed thrown _ => .error thrown

end Written

inductive TableOp
  /-- `BEGIN` and `SELECT pg_advisory_xact_lock(…)`. -/
  | lock
  /-- The end of the transaction, which gives the lock up. -/
  | unlock
  | selectIdx (mandateId : JsString)
  | selectMax
  | selectMandates (agentId : JsString)
  /-- The last statement of a transaction together with its `COMMIT`. -/
  | commit (write : Option IndexWrite)
  | linkIndex (mandateId agentId : JsString)
  | linkRecord (mandateId agentId : JsString)
  | upsertRecord (row : RecordRow)
  | deleteRecord (mandateId : JsString)
  | upsertBlock (agentId : JsString) (block : AgentBlock)
  | deleteBlock (agentId : JsString)

@[reducible] def TableOp.Answer : TableOp → Type
  | lock => Throwing Unit
  | unlock => Unit
  | selectIdx _ => Throwing (Option (Option ℕ))
  | selectMax => Throwing (Option ℕ)
  | selectMandates _ => Throwing (List JsString)
  | _ => Written

abbrev TableProgram : Type → Type := Async TableOp.Answer Thrown

abbrev TableOp.ask (op : TableOp) : TableProgram op.Answer := Async.perform op

namespace PostgresRevocationStore

/-- Awaits a write. -/
def wrote (p : TableProgram Written) : TableProgram Unit := Async.orThrow (Written.outcome <$> p)

/-- A transaction that begins with the lock; whatever fails in it rolls it back. -/
def inTransaction (p : TableProgram α) : TableProgram α := do
  Async.orThrow (TableOp.ask .lock)
  let outcome ← p.outcomeOf
  let _ ← TableOp.ask .unlock
  Async.settled outcome

/-- `toSafeInt`, of a column that holds indices. -/
def safeIndex (idx : ℕ) (field : JsString) : Throwing ℕ :=
  (toSafeInt idx field).map fun _ => idx

/- How the driver and the database carry a text parameter, which they may also refuse. -/
variable (bindText : JsString → Throwing JsString)

/-- The index after the highest. -/
def nextIndex : Option ℕ → Throwing ℕ
  | none => .ok 0
  | some highest => (· + 1) <$> safeIndex highest "max(idx)"

/-- The update of an agent, where one is given. -/
def agentWrite (mandateId : JsString) : Option JsString → Throwing (Option IndexWrite)
  | none => .ok none
  | some agentId => return some (.updateAgent mandateId (← bindText agentId))

/-- The allocation of a mandate that holds an index, which it keeps. -/
def keepIndex (mandateId : JsString) (agentId : Option JsString) (held : ℕ) :
    TableProgram (Option ℕ) := do
  let write ← Async.settled (agentWrite bindText mandateId agentId)
  -- an index that is no safe integer rolls the update back
  let index ← Async.settled (safeIndex held "idx")
  wrote (TableOp.ask (.commit write))
  return some index

/-- The allocation of a mandate that holds none. -/
def giveIndex (mandateId : JsString) (agentId : Option JsString) (capacity : Number) :
    TableProgram (Option ℕ) := do
  let highest ← Async.orThrow (TableOp.ask .selectMax)
  let next ← Async.settled (nextIndex highest)
  if capacity ≤ (next : ℤ) then do
    wrote (TableOp.ask (.commit none))
    return none
  else do
    let agent ← Async.settled (agentId.mapM bindText)
    wrote (TableOp.ask (.commit (some (.insertIndex mandateId next agent))))
    return some next

def allocate (mandateId : JsString) (agentId : Option JsString) (capacity : Number) :
    TableProgram (Option ℕ) := inTransaction do
  let mandate ← Async.settled (bindText mandateId)
  match ← Async.orThrow (TableOp.ask (.selectIdx mandate)) with
  | some (some held) => keepIndex bindText mandate agentId held
  | _ => giveIndex bindText mandate agentId capacity

def indexOf (mandateId : JsString) : TableProgram (Option ℕ) := do
  let mandate ← Async.settled (bindText mandateId)
  match ← Async.orThrow (TableOp.ask (.selectIdx mandate)) with
  | some (some held) => some <$> Async.settled (safeIndex held "idx")
  | _ => return none

def link (mandateId agentId : JsString) : TableProgram Unit := do
  let mandate ← Async.settled (bindText mandateId)
  let agent ← Async.settled (bindText agentId)
  wrote (TableOp.ask (.linkIndex mandate agent))
  wrote (TableOp.ask (.linkRecord mandate agent))

def mandatesFor (agentId : JsString) : TableProgram (List JsString) := do
  let agent ← Async.settled (bindText agentId)
  Async.orThrow (TableOp.ask (.selectMandates agent))

def bindRecord (record : RevocationRecord) : Throwing RecordRow := do
  let mandateId ← bindText record.mandateId
  let idx ← record.index.mapM bigint
  let revokedAt ← bindText record.revokedAt
  let reason ← record.reason.mapM bindText
  let revokedBy ← record.byWhom.mapM bindText
  let agentId ← record.agentId.mapM bindText
  return ⟨mandateId, idx, record.purpose, revokedAt, reason, revokedBy, agentId⟩

def revoke (record : RevocationRecord) : TableProgram Unit := do
  let row ← Async.settled (bindRecord bindText record)
  wrote (TableOp.ask (.upsertRecord row))

def clear (mandateId : JsString) : TableProgram Unit := do
  let mandate ← Async.settled (bindText mandateId)
  wrote (TableOp.ask (.deleteRecord mandate))

def bindBlock (block : AgentBlock) : Throwing AgentBlock := do
  let reason ← block.reason.mapM bindText
  let byWhom ← block.byWhom.mapM bindText
  let blockedAt ← bindText block.blockedAt
  return ⟨reason, byWhom, blockedAt, block.purpose⟩

def blockAgent (agentId : JsString) (block : AgentBlock) : TableProgram Unit := do
  let agent ← Async.settled (bindText agentId)
  let bound ← Async.settled (bindBlock bindText block)
  wrote (TableOp.ask (.upsertBlock agent bound))

def unblockAgent (agentId : JsString) : TableProgram Unit := do
  let agent ← Async.settled (bindText agentId)
  wrote (TableOp.ask (.deleteBlock agent))

end PostgresRevocationStore
end Vaduno.Postgres
