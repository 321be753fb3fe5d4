import Vaduno.Ledger.Verify
import Vaduno.Policy.WindowAgreement

/-! What a guard takes back from its ledger after a restart: the spend it had counted and its freeze. The ledger is
read twice, once to be verified and once for the rows; beside it, the history that reads the ledger at every
question instead. -/
namespace Vaduno.Guard
open Ecma Ledger Policy

/-- What a guard keeps in memory. -/
structure GuardMemory where
  usingInMemoryHistory : Bool
  executed : List ExecutedSpend
  /-- The reason of a freeze that holds. -/
  frozen : Option JsString
  freezeEpoch : ℕ
  hydrated : Bool
  hydrateFailed : Bool

structure HydrateReport where
  restoredSpendRows : ℕ
  skippedUnparseableSpendRows : ℕ

/-- `data !== null && typeof data === "object"`. -/
def isObject : JsValue → Bool
  | .array _ | .object _ | .foreign (some _) _ _ => true
  | _ => false

/-- What a row is to the spend counter. -/
inductive RestoredRow
  | ignored
  /-- It cannot be parsed, and is reported. -/
  | skipped
  | spend (s : ExecutedSpend)

section Restore
variable (platform : Platform)

/-- The loop's body. -/
def restoreRow (e : LedgerEntry) : RestoredRow :=
  if e.type ≠ .executionResult then .ignored
  else if !isObject e.data then .skipped
  else
    match member "success" e.data with
    | .boolean true =>
      match member "amountMinor" e.data, member "currency" e.data with
      | .number amountMinor, .string currency =>
        let ms := platform.dateParse e.timestamp
        if !amountMinor.isSafeInteger || ms.isNaN then .skipped
        else .spend ⟨ms, amountMinor, currency, textOf (member "merchantKey" e.data)⟩
      | _, _ => .skipped
    | _ => .ignored

def restoredSpend (e : LedgerEntry) : Option ExecutedSpend :=
  match restoreRow platform e with
  | .spend s => some s
  | _ => none

def isSkipped (e : LedgerEntry) : Bool :=
  match restoreRow platform e with
  | .skipped => true
  | _ => false

def isFreezeRow (e : LedgerEntry) : Bool := e.type = .guardFrozen || e.type = .guardUnfrozen

/-- The last row about freezing decides. -/
def restoredFreeze (entries : List LedgerEntry) : Option JsString :=
  match entries.reverse.find? isFreezeRow with
  | some e => if e.type = .guardUnfrozen then none else some ((textOf (member "reason" e.data)).getD "frozen")
  | none => none

/-- The body of `hydrateFromLedger`. `verifyRead` and `allRead` are what the store answers to the two reads;
`guard` is the memory when both have been answered, and a freeze since the call shows in its epoch. -/
def restoreFromLedger (expectedHead : Option LedgerHead) (epochAtCall : ℕ)
    (verifyRead allRead : Throwing (List LedgerEntry)) (guard : GuardMemory) :
    Throwing (HydrateReport × GuardMemory) := do
  let verdict := verify platform expectedHead (← verifyRead)
  if !verdict.ok then
    throw (.error (encode "hydrateFromLedger refused: ledger failed verification (" ++
      verdict.problem.getD "unknown" ++ ")"))
  let entries ← allRead
  let counting := if guard.usingInMemoryHistory then entries else []
  let executed := counting.filterMap (restoredSpend platform)
  return (⟨executed.length, counting.countP (isSkipped platform)⟩,
    { guard with
      executed
      -- a freeze or unfreeze since the call is newer than the rows, and one that holds is never lifted
      frozen := if guard.freezeEpoch = epochAtCall then (restoredFreeze entries).or guard.frozen else guard.frozen
      hydrated := true })

/-- Once for each guard; a failed attempt may be repeated, and denies until then. -/
def hydrateFromLedger (expectedHead : Option LedgerHead) (epochAtCall : ℕ)
    (verifyRead allRead : Throwing (List LedgerEntry)) (guard : GuardMemory) :
    Throwing HydrateReport × GuardMemory :=
  if guard.hydrated then
    (.error (.error "hydrateFromLedger already called on this guard instance"), guard)
  else
    match restoreFromLedger platform expectedHead epochAtCall verifyRead allRead guard with
    | .ok (report, restored) => (.ok report, { restored with hydrateFailed := false })
    | .error e => (.error e, { guard with hydrateFailed := true })

end Restore

/-! ### The history over the ledger -/

/-- What a question makes of a row. -/
inductive Reading (α : Type)
  | passed
  | unparseable (problem : JsString)
  | counted (a : α)

def Reading.problem? : Reading α → Option JsString
  | unparseable problem => some problem
  | _ => none

namespace LedgerSpendHistory
variable (platform : Platform)

/-- The checks that both questions begin with: a result from `sinceIso` on that is a successful one. -/
def readResult (sinceIso : JsString) (e : LedgerEntry) (success : Reading α) : Reading α :=
  if e.type ≠ .executionResult then .passed
  else if e.timestamp < sinceIso then .passed
  else if !isObject e.data then .unparseable "data is not an object"
  else
    match member "success" e.data with
    | .boolean true => success
    | _ => .passed

/-- The currency decides about a row whose amount, if that matters, has been read. -/
def readCurrency (currency : JsString) (e : LedgerEntry) (counted : Reading α) : Reading α :=
  match member "currency" e.data with
  | .string own => if platform.toUpperCase own ≠ platform.toUpperCase currency then .passed else counted
  | _ => .unparseable "currency is not a string"

def readSpend (sinceIso currency : JsString) (e : LedgerEntry) : Reading Number :=
  readResult sinceIso e <|
    match member "amountMinor" e.data with
    | .number amountMinor =>
      if amountMinor.isSafeInteger then readCurrency platform currency e (.counted amountMinor)
      else .unparseable "amountMinor is not a safe integer"
    | _ => .unparseable "amountMinor is not a safe integer"

def readMerchant (merchantKey sinceIso currency : JsString) (e : LedgerEntry) : Reading Unit :=
  readResult sinceIso e <| readCurrency platform currency e <|
    match member "merchantKey" e.data with
    | .string own => if own ≠ merchantKey then .passed else .counted ()
    | _ => .counted ()

def totalsSince (entries : List LedgerEntry) (sinceIso currency : JsString) : SpendTotals :=
  entries.foldl (fun totals e =>
    match readSpend platform sinceIso currency e with
    | .counted amountMinor => ⟨totals.totalMinor + amountMinor, totals.count + 1⟩
    | _ => totals) ⟨0, 0⟩

def merchantCountSince (entries : List LedgerEntry) (merchantKey sinceIso currency : JsString) : Number :=
  entries.foldl (fun count e =>
    match readMerchant platform merchantKey sinceIso currency e with
    | .counted () => count + 1
    | _ => count) 0

/-- The calls of `onUnparseable` during a question, which cannot change its answer. -/
def surfaced (read : LedgerEntry → Reading α) (entries : List LedgerEntry) : List (LedgerEntry × JsString) :=
  entries.filterMap fun e => (read e).problem?.map (e, ·)

end LedgerSpendHistory
end Vaduno.Guard
