import Vaduno.Ecma.Utf8
import Vaduno.Ledger.Entry
import Vaduno.Transparency.Merkle

/-! The ledger's mirror in a transparency log: what `sync` and `audit` do between two awaits. The
mirror's calls take turns in its queue, and the log's appends in the log's. -/
namespace Vaduno.Transparency
open Ecma Ledger

structure TreeHead where
  treeSize : ℕ
  rootHash : JsString
  deriving DecidableEq

structure SignedTreeHead extends TreeHead where
  logId : JsString
  timestamp : JsString
  signature : JsString

structure BatchAppendResult where
  /-- Index of the first appended leaf. -/
  firstIndex : ℕ
  appended : ℕ
  head : TreeHead

structure MirrorSyncResult where
  /-- Entries newly added to the tree by this sync. -/
  appended : ℕ
  head : TreeHead
  /-- Present when the mirror signs its heads. -/
  signedHead : Option SignedTreeHead

structure MirrorAuditResult where
  ok : Bool
  /-- Number of leaves cross-checked against ledger entries. -/
  checked : ℕ
  problem : Option JsString

inductive MirrorQueue
  | mirror
  | tree
  deriving DecidableEq

inductive MirrorOp
  | enter (queue : MirrorQueue)
  | leave (queue : MirrorQueue)
  | ledgerAll
  /-- A writer of the ledger extends it. -/
  | ledgerAppend (entry : LedgerEntry)
  | storeAll
  | storeAppend (leafHashHex : JsString)
  /-- `signTreeHeadWith`, with the mirror's signing configuration. -/
  | signTreeHead (head : TreeHead)

@[reducible] def MirrorOp.Answer : MirrorOp → Type
  | enter _ | leave _ => Unit
  | ledgerAll => Throwing (List LedgerEntry)
  | storeAll => Throwing (List JsString)
  | ledgerAppend _ | storeAppend _ => Throwing Unit
  | signTreeHead _ => Throwing SignedTreeHead

abbrev MirrorProgram : Type → Type := Async MirrorOp.Answer Thrown

abbrev MirrorOp.ask (op : MirrorOp) : MirrorProgram op.Answer := Async.perform op

def leafVersion : JsString := "vaduno-ledger-entry/v1\n"

def ledgerEntryLeaf (entry : LedgerEntry) : Throwing JsString :=
  return leafVersion ++ (← canonicalJson entry.object)

section Leaves
variable (sha256 : Bytes → Hash)

/-- The leaf hash that stands for an entry, where the entry has canonical JSON. -/
def entryLeafHash (entry : LedgerEntry) : Throwing JsString :=
  return leafHash sha256 (utf8 (← ledgerEntryLeaf entry))

/-- `entries.map((e) => ledgerEntryLeaf(e))`. -/
def ledgerEntryLeaves (entries : List LedgerEntry) : Throwing (List JsString) :=
  entries.mapM ledgerEntryLeaf

namespace TransparencyLog

def storeAll : MirrorProgram (List JsString) := Async.orThrow (MirrorOp.ask .storeAll)

def size : MirrorProgram ℕ := List.length <$> storeAll

/-- The head that commits to the leaves. -/
def headOf (leaves : List JsString) : Throwing TreeHead :=
  return ⟨leaves.length, ← rootFromLeafHashes sha256 leaves none⟩

def head : MirrorProgram TreeHead := do
  Async.settled (headOf sha256 (← storeAll))

/-- `for (const h of hashes) await this.store.append(h)`. -/
def appendHashes : List JsString → MirrorProgram Unit
  | [] => return ()
  | h :: rest => do
    Async.orThrow (MirrorOp.ask (.storeAppend h))
    appendHashes rest

/-- The leaves are hashed before the queue is entered. -/
def appendLeaves (datas : List JsString) : MirrorProgram BatchAppendResult :=
  let hashes := datas.map fun data => leafHash sha256 (utf8 data)
  Async.bracket (.enter .tree) (.leave .tree) do
    let before ← size
    appendHashes hashes
    let head ← head sha256
    return ⟨before, hashes.length, head⟩

def leafHashAt (leafIndex : ℕ) : MirrorProgram JsString := do
  let hashes ← storeAll
  match hashes[leafIndex]? with
  | some h => return h
  | none => throw (.error ("leaf index " ++ natText leafIndex ++ " out of range (have " ++
      natText hashes.length ++ ")"))

end TransparencyLog

namespace LedgerMirror

def run (p : MirrorProgram α) : MirrorProgram α :=
  Async.bracket (.enter .mirror) (.leave .mirror) p

def ledgerAll : MirrorProgram (List LedgerEntry) := Async.orThrow (MirrorOp.ask .ledgerAll)

/-- The head after the entries that the tree lacks have been appended. -/
def appendFresh (before : ℕ) (fresh : List JsString) : MirrorProgram TreeHead :=
  if fresh.length > 0 then do
    let batch ← TransparencyLog.appendLeaves sha256 fresh
    if batch.firstIndex ≠ before then
      throw (.error ("batch landed at leaf " ++ natText batch.firstIndex ++ ", expected " ++
        natText before ++ " — another writer appended to this tree"))
    else return batch.head
  else TransparencyLog.head sha256

/-- `result.signedHead`, where the mirror was constructed with signing config. -/
def signedHead (signing : Bool) (head : TreeHead) : MirrorProgram (Option SignedTreeHead) :=
  if signing then some <$> Async.orThrow (MirrorOp.ask (.signTreeHead head)) else return none

/-- Append any ledger entries not yet in the tree; returns the new head. -/
def sync (signing : Bool) : MirrorProgram MirrorSyncResult := run do
  let entries ← ledgerAll
  let before ← TransparencyLog.size
  if before > entries.length then
    throw (.error ("transparency tree has " ++ natText before ++ " leaves but ledger has " ++
      natText entries.length ++ " entries — tree and ledger have diverged"))
  else do
    let fresh ← Async.settled (ledgerEntryLeaves (entries.drop before))
    let head ← appendFresh sha256 before fresh
    let signed ← signedHead signing head
    return ⟨fresh.length, head, signed⟩

/-- The cross-check from leaf `i` on, over the entries that are left of the first `size`. -/
def auditFrom (size i : ℕ) : List LedgerEntry → MirrorProgram MirrorAuditResult
  | [] => return ⟨true, size, none⟩
  | entry :: rest =>
    match entryLeafHash sha256 entry with
    | .error _ => return ⟨false, i, some ("ledger entry seq " ++ entry.seq.toText ++
        " is not canonicalizable")⟩
    | .ok expected => do
      let h ← TransparencyLog.leafHashAt i
      if h ≠ expected then
        return ⟨false, i, some ("leaf " ++ natText i ++ " does not match ledger entry seq " ++
          entry.seq.toText ++ " (ledger or tree modified after mirroring)")⟩
      else auditFrom size (i + 1) rest

/-- `Promise.all([this.ledger.all(), this.tree.size()])`: the two reads may be answered in either
order. -/
def readBoth (ledgerFirst : Bool) : MirrorProgram (List LedgerEntry × ℕ) :=
  if ledgerFirst then do
    let entries ← ledgerAll
    let size ← TransparencyLog.size
    return (entries, size)
  else do
    let size ← TransparencyLog.size
    let entries ← ledgerAll
    return (entries, size)

/-- Cross-check every tree leaf against the ledger entry at the same index. -/
def audit (ledgerFirst : Bool) : MirrorProgram MirrorAuditResult := run do
  let (entries, size) ← readBoth ledgerFirst
  if size > entries.length then
    return ⟨false, 0, some ("tree has " ++ natText size ++ " leaves but ledger has " ++
      natText entries.length ++ " entries")⟩
  else auditFrom sha256 size 0 (entries.take size)

end LedgerMirror
end Leaves
end Vaduno.Transparency
