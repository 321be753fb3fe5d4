import Vaduno.Guard.HistoryAgreement

/-! What is taken from a ledger, against what was verified of it. The ledger verifies what its store answers to
one read, and a recovery or a bundle of evidence is put together from what it answers to another. -/
namespace Vaduno.Guard
open Ecma Ledger Policy Enforce

/-! ### Evidence -/

/-- The rows of an intent. -/
def rowsOf (intentId : JsString) (entries : List LedgerEntry) : List LedgerEntry :=
  entries.filter fun e => decide (e.refs.intentId = some intentId)

section Recovery
variable (platform : Platform) (epochAtCall : ℕ) (guard : GuardMemory)

/-- Two lists hold the same spends, in the same order, where the guard counts them; and the same freeze, where it
is taken from them. -/
structure SameRecovery (verified entries : List LedgerEntry) : Prop where
  spends : guard.usingInMemoryHistory = true →
    entries.filterMap (restoredSpend platform) = verified.filterMap (restoredSpend platform)
  freeze : guard.freezeEpoch = epochAtCall →
    (restoredFreeze entries).or guard.frozen = (restoredFreeze verified).or guard.frozen

end Recovery

section Trust
variable {platform : Platform} {epochAtCall : ℕ} {guard recovered : GuardMemory} {expectedHead : Option LedgerHead}
  {verified entries : List LedgerEntry} {report : HydrateReport}

/-- What others have appended between the two reads changes what is recovered exactly where it adds a spend that
the guard counts, or decides about a freeze otherwise. -/
theorem sameRecovery_append (later : List LedgerEntry) :
    SameRecovery platform epochAtCall guard verified (verified ++ later) ↔
      (guard.usingInMemoryHistory = true → ∀ e ∈ later, restoredSpend platform e = none) ∧
      (guard.freezeEpoch = epochAtCall →
        (restoredFreeze (verified ++ later)).or guard.frozen = (restoredFreeze verified).or guard.frozen) := by
  constructor
  · rintro ⟨spends, freeze⟩
    refine ⟨fun own => ?_, freeze⟩
    have same := spends own
    rw [List.filterMap_append, List.append_right_eq_self] at same
    exact List.filterMap_eq_nil_iff.mp same
  · rintro ⟨spends, freeze⟩
    refine ⟨fun own => ?_, freeze⟩
    rw [List.filterMap_append, List.filterMap_eq_nil_iff.mpr (spends own), List.append_nil]

end Trust

namespace Recovery.Sample
open HistoryAgreement.Sample

end Recovery.Sample
end Vaduno.Guard
