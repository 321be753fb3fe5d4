import Vaduno.Async.Pool
import Vaduno.Revocation.Registry

/-! Any number of registries over one store: what an answered operation does to the store, the ledger
and the fields of an instance. -/
namespace Vaduno.Revocation
open Ecma Ledger Enforce

/-- `Math.max`. -/
def maxOf (a b : Number) : Number := if a.isNaN || b.isNaN then .nan else if a < b then b else a

structure RegistryWorld (ι : Type) where
  store : MemoryRevocationStore
  ledger : List Entry
  /-- Whose turn it is in the queue of an instance. -/
  holder : ℕ → Option ι
  lastPublishedVersion : ℕ → Number
  signingVersions : ℕ → List Number

namespace RegistryWorld
variable {ι : Type} (w : RegistryWorld ι)

/-- The highest version already published or being signed. -/
def versionFloor (registry : ℕ) : Number :=
  (w.signingVersions registry).foldl maxOf (w.lastPublishedVersion registry)

def record (row : Entry) : RegistryWorld ι := { w with ledger := w.ledger ++ [row] }

def withStore (store : MemoryRevocationStore) : RegistryWorld ι := { w with store }

def handTo (registry : ℕ) (turn : Option ι) : RegistryWorld ι :=
  { w with holder := Function.update w.holder registry turn }

def sign (registry : ℕ) (versions : List Number) : RegistryWorld ι :=
  { w with signingVersions := Function.update w.signingVersions registry versions }

def published (registry : ℕ) (version : Number) : RegistryWorld ι :=
  { w with lastPublishedVersion := Function.update w.lastPublishedVersion registry version }

end RegistryWorld

/-- What an operation does to the store where it takes effect. -/
def RegistryOp.moves (s : MemoryRevocationStore) : RegistryOp → MemoryRevocationStore
  | allocate mandateId agentId capacity => (s.allocate mandateId agentId capacity).2
  | revoke record => s.revoke record
  | clear mandateId => s.clear mandateId
  | blockAgent agentId block => s.blockAgent agentId block
  | unblockAgent agentId => s.unblockAgent agentId
  | _ => s

section Works
variable {ι : Type}

/-- How the outside answers: every operation on the store or the ledger may fail, applied or not; a
turn in a queue is given to one call at a time. Nothing is assumed about clocks and signatures. -/
def RegistryWorks : Async.Answers RegistryOp.Answer (RegistryWorld ι) ι
  | w, i, .enter registry, _, w' =>
    w.holder registry = none ∧ w' = w.handTo registry (some i)
  | w, _, .leave registry, _, w' => w' = w.handTo registry none
  | w, _, .append type data agentId, ans, w' =>
    ∃ timestamp, Fallibly w (w.record ⟨timestamp, type, ⟨none, agentId⟩, data⟩) (.ok ()) ans w'
  | w, _, .allocate mandateId agentId capacity, ans, w' =>
    Fallibly w (w.withStore (w.store.allocate mandateId agentId capacity).2)
      (.ok (w.store.allocate mandateId agentId capacity).1) ans w'
  | w, _, .indexOf mandateId, ans, w' => Fallibly w w (.ok (w.store.indices mandateId)) ans w'
  | w, _, .agentOf mandateId, ans, w' => Fallibly w w (.ok (w.store.agents mandateId)) ans w'
  | w, _, .mandatesFor agentId, ans, w' => Fallibly w w (.ok (w.store.byAgent agentId)) ans w'
  | w, _, .revoke record, ans, w' => Fallibly w (w.withStore (w.store.revoke record)) (.ok ()) ans w'
  | w, _, .clear mandateId, ans, w' =>
    Fallibly w (w.withStore (w.store.clear mandateId)) (.ok ()) ans w'
  | w, _, .get mandateId, ans, w' => Fallibly w w (.ok (w.store.get mandateId)) ans w'
  | w, _, .blockAgent agentId block, ans, w' =>
    Fallibly w (w.withStore (w.store.blockAgent agentId block)) (.ok ()) ans w'
  | w, _, .getAgentBlock agentId, ans, w' =>
    Fallibly w w (.ok (w.store.getAgentBlock agentId)) ans w'
  | w, _, .unblockAgent agentId, ans, w' =>
    Fallibly w (w.withStore (w.store.unblockAgent agentId)) (.ok ()) ans w'
  | w, _, .isAgentBlocked agentId, ans, w' =>
    Fallibly w w (.ok (w.store.isAgentBlocked agentId)) ans w'
  | w, _, .snapshot, ans, w' => Fallibly w w (.ok w.store.snapshot) ans w'
  | w, _, .reserveVersion registry version, ans, w' =>
    if !version.isSafeInteger || decide (version ≤ w.versionFloor registry) then
      ans = some (w.versionFloor registry) ∧ w' = w
    else ans = none ∧ w' = w.sign registry (w.signingVersions registry ++ [version])
  | w, _, .notePublished registry version, _, w' =>
    w' = w.published registry (maxOf (w.lastPublishedVersion registry) version)
  | w, _, .releaseVersion registry version, _, w' =>
    w' = w.sign registry ((w.signingVersions registry).filter (· ≠ version))
  | w, _, .nowIso, _, w' | w, _, .validity, _, w' | w, _, .checkedSign _, _, w' => w' = w

/-- What an operation can do, however it was answered. -/
inductive RegistryEffect (w : RegistryWorld ι) (i : ι) : RegistryOp → RegistryWorld ι → Prop
  | none : RegistryEffect w i op w
  | enter (free : w.holder registry = .none) :
    RegistryEffect w i (.enter registry) (w.handTo registry (some i))
  | leave : RegistryEffect w i (.leave registry) (w.handTo registry .none)
  | append (timestamp : JsString) :
    RegistryEffect w i (.append type data agentId) (w.record ⟨timestamp, type, ⟨.none, agentId⟩, data⟩)
  | store : RegistryEffect w i op (w.withStore (op.moves w.store))
  | reserve (safe : version.isSafeInteger = true) (above : ¬version ≤ w.versionFloor registry) :
    RegistryEffect w i (.reserveVersion registry version)
      (w.sign registry (w.signingVersions registry ++ [version]))
  | publish : RegistryEffect w i (.notePublished registry version)
      (w.published registry (maxOf (w.lastPublishedVersion registry) version))
  | release : RegistryEffect w i (.releaseVersion registry version)
      (w.sign registry ((w.signingVersions registry).filter (· ≠ version)))

theorem fallibly_moved {σ α : Type} {s moved s' : σ} {result ans : Throwing α}
    (answered : Fallibly s moved result ans s') : s' = s ∨ s' = moved := by
  rcases answered with ⟨-, rfl⟩ | ⟨-, unmoved | moved⟩
  · exact .inr rfl
  · exact .inl unmoved
  · exact .inr moved

theorem RegistryWorks.effect {w w' : RegistryWorld ι} {i : ι} {op : RegistryOp} {ans : op.Answer}
    (answered : RegistryWorks w i op ans w') : RegistryEffect w i op w' := by
  have either : ∀ {α : Type} {moved : RegistryWorld ι} {result ans : Throwing α},
      Fallibly w moved result ans w' → RegistryEffect w i op moved → RegistryEffect w i op w' := by
    intro α moved result ans answered effect
    rcases fallibly_moved answered with rfl | rfl
    · exact .none
    · exact effect
  cases op with
  | enter registry =>
    obtain ⟨free, rfl⟩ := answered
    exact .enter free
  | leave registry =>
    cases answered
    exact .leave
  | append type data agentId =>
    obtain ⟨timestamp, answered⟩ := answered
    exact either answered (.append timestamp)
  | reserveVersion registry version =>
    simp only [RegistryWorks] at answered
    split at answered
    · obtain ⟨-, rfl⟩ := answered
      exact .none
    · rename_i accepted
      obtain ⟨-, rfl⟩ := answered
      rw [Bool.or_eq_true, not_or, Bool.not_eq_true', Bool.not_eq_false, decide_eq_true_eq] at accepted
      exact .reserve accepted.1 accepted.2
  | notePublished registry version =>
    cases answered
    exact .publish
  | releaseVersion registry version =>
    cases answered
    exact .release
  | nowIso | validity | checkedSign _ =>
    cases answered
    exact .none
  | _ => exact either answered .store

section Effect
variable {w w' : RegistryWorld ι} {i : ι} {op : RegistryOp}

theorem RegistryEffect.store_moved (effect : RegistryEffect w i op w') :
    w'.store = w.store ∨ w'.store = op.moves w.store := by
  cases effect with
  | store => exact .inr rfl
  | _ => exact .inl rfl

theorem RegistryEffect.holder_kept (effect : RegistryEffect w i op w')
    (enters : ∀ r, op ≠ .enter r) (leaves : ∀ r, op ≠ .leave r) : w'.holder = w.holder := by
  cases effect with
  | enter free => exact absurd rfl (enters _)
  | leave => exact absurd rfl (leaves _)
  | _ => rfl

theorem RegistryEffect.ledger_kept (effect : RegistryEffect w i op w')
    (appends : ∀ type data agentId, op ≠ .append type data agentId) : w'.ledger = w.ledger := by
  cases effect with
  | append timestamp => exact absurd rfl (appends _ _ _)
  | _ => rfl

end Effect
end Works

/-! ### Calls -/

inductive RegistryCall
  | assignIndex (mandateId agentId : JsString)
  | revokeMandate (mandateId : JsString) (opts : RevokeOptions)
  | revokeAgent (agentId : JsString) (opts : RevokeOptions)
  | unsuspendMandate (mandateId : JsString) (byWhom : Option JsString)
  | unblockAgent (agentId : JsString) (byWhom : Option JsString)
  | publish (version : Number) (purpose : StatusPurpose)
  | check (intent : PaymentIntent)

inductive CallResult
  | index (n : ℕ)
  | killed (result : RevocationResult)
  | killedAll (results : List RevocationResult)
  | lifted
  | published (credential : StatusListCredential)
  | verdict (verdict : RevocationVerdict)

def RevocationRegistry.serve (registry : RevocationRegistry) : RegistryCall → RegistryProgram CallResult
  | .assignIndex mandateId agentId => .index <$> registry.assignIndex mandateId agentId
  | .revokeMandate mandateId opts => .killed <$> registry.revokeMandate mandateId opts
  | .revokeAgent agentId opts => .killedAll <$> registry.revokeAgent agentId opts
  | .unsuspendMandate mandateId byWhom =>
    (fun _ => .lifted) <$> registry.unsuspendMandate mandateId byWhom
  | .unblockAgent agentId byWhom => (fun _ => .lifted) <$> registry.unblockAgent agentId byWhom
  | .publish version purpose => .published <$> registry.publish version purpose
  | .check intent => .verdict <$> registryCheck intent

/-! ### An outside that works

Everything is answered, except a turn that is taken; `appends` says which rows the ledger takes. -/

section Working
variable {ι : Type} (appends : JsValue → Bool)

def working (w : RegistryWorld ι) (i : ι) : (op : RegistryOp) → Option (op.Answer × RegistryWorld ι)
  | .enter registry =>
    if (w.holder registry).isNone then some ((), w.handTo registry (some i)) else none
  | .leave registry => some ((), w.handTo registry none)
  | .append type data agentId =>
    if appends data then
      some (.ok (), w.record ⟨"2026-05-28T20:26:40.000Z", type, ⟨none, agentId⟩, data⟩)
    else some (.error (.error "disk full"), w)
  | .allocate mandateId agentId capacity =>
    let allocated := w.store.allocate mandateId agentId capacity
    some (.ok allocated.1, w.withStore allocated.2)
  | .indexOf mandateId => some (.ok (w.store.indices mandateId), w)
  | .agentOf mandateId => some (.ok (w.store.agents mandateId), w)
  | .mandatesFor agentId => some (.ok (w.store.byAgent agentId), w)
  | .revoke record => some (.ok (), w.withStore (w.store.revoke record))
  | .clear mandateId => some (.ok (), w.withStore (w.store.clear mandateId))
  | .get mandateId => some (.ok (w.store.get mandateId), w)
  | .blockAgent agentId block => some (.ok (), w.withStore (w.store.blockAgent agentId block))
  | .getAgentBlock agentId => some (.ok (w.store.getAgentBlock agentId), w)
  | .unblockAgent agentId => some (.ok (), w.withStore (w.store.unblockAgent agentId))
  | .isAgentBlocked agentId => some (.ok (w.store.isAgentBlocked agentId), w)
  | .snapshot => some (.ok w.store.snapshot, w)
  | .reserveVersion registry version =>
    if !version.isSafeInteger || decide (version ≤ w.versionFloor registry) then
      some (some (w.versionFloor registry), w)
    else some (none, w.sign registry (w.signingVersions registry ++ [version]))
  | .notePublished registry version =>
    some ((), w.published registry (maxOf (w.lastPublishedVersion registry) version))
  | .releaseVersion registry version =>
    some ((), w.sign registry ((w.signingVersions registry).filter (· ≠ version)))
  | .nowIso => some (.ok "2026-05-28T20:26:40.000Z", w)
  | .validity => some (.ok ("2026-05-28T20:26:40.000Z", "2026-05-28T21:26:40.000Z"), w)
  | .checkedSign _ => some (.ok "c2lnbmVk", w)

/-- The value a call has settled with, if it has. -/
def settledWith : RegistryProgram CallResult → Option CallResult
  | .done (.ok result) => some result
  | _ => none

theorem done_of_settledWith {p : RegistryProgram CallResult} (settled : settledWith p = some result) :
    p = .done (.ok result) := by
  unfold settledWith at settled
  split at settled
  · cases settled
    rfl
  · cases settled

theorem works_of_working {w w' : RegistryWorld ι} {i : ι} {op : RegistryOp} {ans : op.Answer}
    (answered : working appends w i op = some (ans, w')) : RegistryWorks w i op ans w' := by
  cases op with
  | enter registry =>
    rw [working] at answered
    split at answered
    · cases answered
      exact ⟨Option.isNone_iff_eq_none.mp ‹_›, rfl⟩
    · cases answered
  | append type data agentId =>
    rw [working] at answered
    split at answered
    · cases answered
      exact ⟨_, .inl ⟨rfl, rfl⟩⟩
    · cases answered
      exact ⟨"", .inr ⟨⟨_, rfl⟩, .inl rfl⟩⟩
  | reserveVersion registry version =>
    rw [working] at answered
    simp only [RegistryWorks]
    split at answered
    · cases answered
      rw [if_pos ‹_›]
      exact ⟨rfl, rfl⟩
    · cases answered
      rw [if_neg ‹_›]
      exact ⟨rfl, rfl⟩
  | leave _ | notePublished _ _ | releaseVersion _ _ | nowIso | validity | checkedSign _ =>
    cases answered
    rfl
  | _ =>
    cases answered
    exact .inl ⟨rfl, rfl⟩

theorem run_working [DecidableEq ι] (schedule : List ι)
    (pool : Async.Pool RegistryOp.Answer Thrown CallResult (RegistryWorld ι) ι) :
    ∃ events, Async.Run RegistryWorks pool events (Async.Pool.attempt (working appends) schedule pool) := by
  refine Async.Pool.run_attempt ?_ schedule pool
  intro w i op ans w' answered
  exact works_of_working appends answered

end Working
end Vaduno.Revocation
