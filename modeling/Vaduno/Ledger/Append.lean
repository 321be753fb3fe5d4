import Vaduno.Async.Pool
import Vaduno.Ledger.Verify

/-! The writer of the audit ledger. It reads the tip, hashes a row onto it and asks the store to append the row only
if that tip is still the tip; a writer that loses chains its row onto the real one and tries again. -/
namespace Vaduno.Ledger
open Ecma Async

/-- The tip that a writer believes it is extending. -/
structure ExpectedTip where
  prevSeq : Number
  prevHash : JsString

inductive AppendResult
  | ok
  | conflict (tip : Option LedgerTip)
  /-- What a store answers that was written before stores compared. -/
  | missing

inductive LedgerOp
  /-- The writer's own callers take turns. -/
  | enter
  | leave
  | last
  /-- `this.now().toISOString()`. -/
  | nowIso
  | append (entry : LedgerEntry) (expected : ExpectedTip)

@[reducible] def LedgerOp.Answer : LedgerOp → Type
  | enter | leave => Unit
  | last => Throwing (Option LedgerEntry)
  | nowIso => Throwing JsString
  | append .. => Throwing AppendResult

abbrev LedgerProgram : Type → Type := Async LedgerOp.Answer Thrown

abbrev LedgerOp.ask (op : LedgerOp) : LedgerProgram op.Answer := Async.perform op

def maxAppendAttempts : ℕ := 32

def lostRace : JsString :=
  "AuditLedger.append: lost the tip race " ++ natText maxAppendAttempts ++
    " times (a rival writer is committing faster than this one can re-chain); failing closed"

def outdatedStore : JsString :=
  "AuditLedger.append: store did not return a compare-and-append result — it predates the 0.3.0 LedgerStore " ++
    "contract and would fork under a second writer; update the store implementation"

/-- What is to be recorded. -/
structure Record where
  type : EntryType
  data : JsValue
  refs : Refs

def nextSeq (tip : Option LedgerTip) : Number := (tip.map fun t => t.seq + 1).getD 0

def tipHash (tip : Option LedgerTip) : JsString := (tip.map (·.hash)).getD genesisHash

section
variable (platform : Platform)

/-- A row at this time and on this tip, with its hash. -/
def chain (record : Record) (tip : Option LedgerTip) (timestamp : JsString) : Throwing LedgerEntry := do
  let unsealed : LedgerEntry :=
    ⟨⟨timestamp, record.type, record.refs, record.data⟩, nextSeq tip, tipHash tip, []⟩
  return { unsealed with hash := ← entryHash platform unsealed }

namespace AuditLedger

/-- The attempts that are left. Each takes the time again: the hash commits to it, and it comes after the row that it
now chains to. -/
def attempt (record : Record) : ℕ → Option LedgerTip → LedgerProgram LedgerEntry
  | 0, _ => throw (.error lostRace)
  | attempts + 1, tip => do
    let timestamp ← Async.orThrow (LedgerOp.nowIso.ask)
    let entry ← Async.settled (chain platform record tip timestamp)
    match ← Async.orThrow (LedgerOp.append entry ⟨entry.seq - 1, entry.prevHash⟩).ask with
    | .ok => return entry
    | .conflict tip => attempt record attempts tip
    | .missing => throw (.error outdatedStore)

def append (record : Record) : LedgerProgram LedgerEntry :=
  Async.bracket .enter .leave do
    let first ← Async.orThrow (LedgerOp.last.ask)
    attempt platform record maxAppendAttempts (first.map LedgerEntry.tip)

end AuditLedger
end

/-! ### Stores -/

/-- `===` on numbers. -/
def sameNumber (a b : Number) : Bool := !a.isNaN && decide (a = b)

/-- Where the rows of a store end. -/
def lastTip (rows : List LedgerEntry) : LedgerTip := (rows.getLast?.map LedgerEntry.tip).getD genesis

/-- The rows in the order of their numbers, as a table is read. -/
def insertRow (entry : LedgerEntry) (rows : List LedgerEntry) : List LedgerEntry :=
  rows.takeWhile (fun row => decide (row.seq < entry.seq)) ++
    entry :: rows.dropWhile fun row => decide (row.seq < entry.seq)

/-- How a store keeps two writers apart: it compares the tip, in one synchronous body or under a lock; or its table
admits one row of a number and one row after a hash. -/
inductive StoreKind
  | compares
  | constrained

/-- The rows with this one, if the store takes it. -/
def StoreKind.take (kind : StoreKind) (rows : List LedgerEntry) (entry : LedgerEntry) (expected : ExpectedTip) :
    Option (List LedgerEntry) :=
  match kind with
  | compares =>
    if sameNumber (lastTip rows).seq expected.prevSeq && decide ((lastTip rows).hash = expected.prevHash) then
      some (rows ++ [entry])
    else none
  | constrained =>
    if rows.any fun row => sameNumber row.seq entry.seq || decide (row.prevHash = entry.prevHash) then none
    else some (insertRow entry rows)

/-- The rows of a store, and who had each one taken, in the order in which it happened. -/
structure Shared (ι : Type) where
  rows : List LedgerEntry
  log : List (ι × LedgerEntry)

/-- A row is taken. -/
def Shared.Takes {ι : Type} (kind : StoreKind) (s : Shared ι) (i : ι) (entry : LedgerEntry) (expected : ExpectedTip)
    (s' : Shared ι) : Prop :=
  kind.take s.rows entry expected = some s'.rows ∧ s'.log = s.log ++ [(i, entry)]

/-- What a store reports of where its rows end may be out of date by the time it is heard. -/
def Shared.Had {ι : Type} (s : Shared ι) (tip : Option LedgerTip) : Prop :=
  ∃ before, before <+: s.rows ∧ tip = before.getLast?.map LedgerEntry.tip

/-- How a store answers a writer. A call that fails may have had its row taken. -/
def Serves {ι : Type} (kind : StoreKind) (s : Shared ι) (i : ι) :
    (op : LedgerOp) → op.Answer → Shared ι → Prop
  | .last, .ok found, s' => s' = s ∧ s.Had (found.map LedgerEntry.tip)
  | .append entry expected, .ok .ok, s' => s.Takes kind i entry expected s'
  | .append _ _, .ok (.conflict tip), s' => s' = s ∧ s.Had tip
  | .append _ _, .ok .missing, _ => False
  | .append entry expected, .error _, s' => s' = s ∨ s.Takes kind i entry expected s'
  | _, _, s' => s' = s

/-- `MemoryLedgerStore.append`. -/
def memoryAppend (rows : List LedgerEntry) (entry : LedgerEntry) (expected : ExpectedTip) :
    AppendResult × List LedgerEntry :=
  let tail := rows.getLast?
  let tipSeq := (tail.map (·.seq)).getD (-1)
  let tipHash := (tail.map (·.hash)).getD genesisHash
  if !sameNumber tipSeq expected.prevSeq || decide (tipHash ≠ expected.prevHash) then
    (.conflict (tail.map LedgerEntry.tip), rows)
  else (.ok, rows ++ [entry])

/-- `SupabaseLedgerStore.append`: the insert is refused by the table, or it is not. -/
def supabaseAppend (rows : List LedgerEntry) (entry : LedgerEntry) : AppendResult × List LedgerEntry :=
  match StoreKind.constrained.take rows entry ⟨-1, genesisHash⟩ with
  | some rows' => (.ok, rows')
  | none => (.conflict (rows.getLast?.map LedgerEntry.tip), rows)

/-- The store with one more row of this writer, or as it was. -/
def Shared.answered {ι : Type} (s : Shared ι) (i : ι) (entry : LedgerEntry) (answer : AppendResult × List LedgerEntry) :
    Shared ι :=
  ⟨answer.2, match answer.1 with
    | .ok => s.log ++ [(i, entry)]
    | _ => s.log⟩

section
variable {ι : Type} {s : Shared ι} {i : ι} {entry : LedgerEntry} {expected : ExpectedTip}

theorem memory_serves : Serves .compares s i (.append entry expected)
    (.ok (memoryAppend s.rows entry expected).1) (s.answered i entry (memoryAppend s.rows entry expected)) := by
  have tail : lastTip s.rows =
      ⟨(s.rows.getLast?.map (·.seq)).getD (-1), (s.rows.getLast?.map (·.hash)).getD genesisHash⟩ := by
    rw [lastTip]
    cases s.rows.getLast? <;> rfl
  unfold memoryAppend
  dsimp only
  split_ifs with stale
  · exact ⟨rfl, s.rows, List.prefix_refl _, rfl⟩
  · rw [Bool.or_eq_true, not_or, Bool.not_eq_true, Bool.not_eq_false', decide_eq_true_eq, not_not] at stale
    refine ⟨?_, rfl⟩
    rw [StoreKind.take, tail, stale.1, stale.2]
    simp [Shared.answered]

end
end Vaduno.Ledger
