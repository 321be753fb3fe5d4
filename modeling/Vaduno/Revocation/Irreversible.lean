import Vaduno.Async.Pool
import Vaduno.Revocation.Steps
import Vaduno.Sample

/-! A permanent kill is the last word on a mandate or an agent. A registry reads a record and then
writes over it, and its queue keeps its own calls apart; a second registry on the same store has a
queue of its own, so a lift that was decided before a kill can be written after it. -/
namespace Vaduno.Revocation
open Ecma Ledger Enforce Async

namespace MemoryRevocationStore
variable (s : MemoryRevocationStore)

/-- A mandate revoked for good. -/
def Killed (mandateId : JsString) : Prop :=
  ∃ record, s.get mandateId = some record ∧ record.purpose = .revocation

/-- An agent revoked for good. -/
def Barred (agentId : JsString) : Prop :=
  ∃ block, s.getAgentBlock agentId = some block ∧ block.purpose = .revocation

theorem any_revocation (purpose : α → StatusPurpose) {found : Option α} :
    found.any (fun a => purpose a = .revocation) = true ↔
      ∃ a, found = some a ∧ purpose a = .revocation := by
  cases found <;> simp

instance (mandateId : JsString) : Decidable (s.Killed mandateId) :=
  decidable_of_iff _ (any_revocation RevocationRecord.purpose)

instance (agentId : JsString) : Decidable (s.Barred agentId) :=
  decidable_of_iff _ (any_revocation AgentBlock.purpose)

end MemoryRevocationStore

/-- A write that undoes no permanent kill: it lifts or suspends only what is not revoked for good in
the store it is written to. -/
def Harmless (s : MemoryRevocationStore) : RegistryOp → Prop
  | .revoke record => record.purpose = .suspension → ¬s.Killed record.mandateId
  | .clear mandateId => ¬s.Killed mandateId
  | .unblockAgent agentId => ¬s.Barred agentId
  | _ => True

instance (s : MemoryRevocationStore) (op : RegistryOp) : Decidable (Harmless s op) :=
  match op with
  | .revoke record => inferInstanceAs (Decidable (record.purpose = .suspension → ¬s.Killed record.mandateId))
  | .clear mandateId => inferInstanceAs (Decidable (¬s.Killed mandateId))
  | .unblockAgent agentId => inferInstanceAs (Decidable (¬s.Barred agentId))
  | .enter _ | .leave _ | .nowIso | .append .. | .allocate .. | .indexOf _ | .agentOf _
  | .mandatesFor _ | .get _ | .blockAgent .. | .getAgentBlock _ | .isAgentBlocked _ | .snapshot
  | .reserveVersion .. | .notePublished .. | .releaseVersion .. | .validity | .checkedSign _ =>
    .isTrue trivial

section Writes
variable {s : MemoryRevocationStore} {op : RegistryOp} {mandateId agentId : JsString}

theorem Harmless.killed (harmless : Harmless s op) (killed : s.Killed mandateId) :
    (op.moves s).Killed mandateId := by
  obtain ⟨record, found, permanent⟩ := killed
  cases op with
  | allocate other link capacity =>
    refine ⟨record, ?_, permanent⟩
    rw [MemoryRevocationStore.get, RegistryOp.moves, MemoryRevocationStore.allocate_records]
    exact found
  | revoke written =>
    by_cases same : written.mandateId = mandateId
    · refine ⟨written, ?_, ?_⟩
      · rw [RegistryOp.moves, MemoryRevocationStore.get_revoke, if_pos same]
      · cases kind : written.purpose with
        | revocation => rfl
        | suspension => exact absurd ⟨record, same ▸ found, permanent⟩ (harmless kind)
    · refine ⟨record, ?_, permanent⟩
      rw [RegistryOp.moves, MemoryRevocationStore.get_revoke, if_neg same, found]
  | clear cleared =>
    have other : mandateId ≠ cleared := by
      rintro rfl
      exact harmless ⟨record, found, permanent⟩
    refine ⟨record, ?_, permanent⟩
    rw [RegistryOp.moves, MemoryRevocationStore.get_clear, if_neg other, found]
  | blockAgent blockee block =>
    refine ⟨record, ?_, permanent⟩
    rw [RegistryOp.moves, MemoryRevocationStore.blockAgent]
    split
    · exact found
    · exact found
  | _ => exact ⟨record, found, permanent⟩

theorem Harmless.barred (harmless : Harmless s op) (barred : s.Barred agentId) :
    (op.moves s).Barred agentId := by
  obtain ⟨block, found, permanent⟩ := barred
  cases op with
  | allocate other link capacity =>
    refine ⟨block, ?_, permanent⟩
    rw [MemoryRevocationStore.getAgentBlock, RegistryOp.moves,
      MemoryRevocationStore.allocate_blocked]
    exact found
  | blockAgent blockee written =>
    refine ⟨block, ?_, permanent⟩
    rw [RegistryOp.moves, MemoryRevocationStore.getAgentBlock_blockAgent, if_neg, found]
    rintro ⟨rfl, open_⟩
    rw [found] at open_
    exact open_ (by simp [permanent])
  | unblockAgent lifted =>
    have other : agentId ≠ lifted := by
      rintro rfl
      exact harmless ⟨block, found, permanent⟩
    refine ⟨block, ?_, permanent⟩
    rw [RegistryOp.moves, MemoryRevocationStore.getAgentBlock_unblockAgent, if_neg other, found]
  | _ => exact ⟨block, found, permanent⟩

end Writes

variable {ι : Type}

/-- An outside in which every write that takes effect is harmless. -/
def HarmlessWorks : Answers RegistryOp.Answer (RegistryWorld ι) ι := fun w i op ans w' =>
  RegistryWorks w i op ans w' ∧ (w'.store ≠ w.store → Harmless w.store op)

/-- Which kill a check of an intent must be told about. -/
inductive Kills (intent : PaymentIntent) : RegistryCall → Prop
  | mandate (carried : intent.mandateId = some mandateId) (named : mandateId ≠ [])
    (purpose : opts.purpose.getD .revocation = .revocation) :
    Kills intent (.revokeMandate mandateId opts)
  | agent (purpose : opts.purpose.getD .revocation = .revocation) :
    Kills intent (.revokeAgent intent.agentId opts)

/-- What a check looks for in the store. -/
def Dead (intent : PaymentIntent) (s : MemoryRevocationStore) : Prop :=
  s.Barred intent.agentId ∨ ∃ mandateId, truthy intent.mandateId = some mandateId ∧ s.Killed mandateId

/-- What harmless writes keep, a step keeps. -/
theorem HarmlessWorks.keeps {w w' : RegistryWorld ι} {i : ι} {op : RegistryOp} {ans : op.Answer}
    (answered : HarmlessWorks w i op ans w') (P : MemoryRevocationStore → Prop)
    (keeps : ∀ {s op}, Harmless s op → P s → P (op.moves s)) (holds : P w.store) : P w'.store := by
  obtain ⟨works, harmless⟩ := answered
  by_cases unmoved : w'.store = w.store
  · rw [unmoved]
    exact holds
  · rw [works.effect.store_moved.resolve_left unmoved]
    exact keeps (harmless unmoved) holds

/-! ### What a kill that resolved has been told -/

/-- An answer after which a mandate is revoked for good. -/
def killedBy (mandateId : JsString) : (op : RegistryOp) → op.Answer → Prop
  | .get read, ans => read = mandateId ∧
    ∃ record, ans = .ok (some record) ∧ record.purpose = .revocation
  | .revoke record, ans =>
    record.mandateId = mandateId ∧ record.purpose = .revocation ∧ ans = .ok ()
  | _, _ => False

/-- An answer after which an agent is revoked for good. -/
def barredBy (agentId : JsString) : (op : RegistryOp) → op.Answer → Prop
  | .blockAgent blockee block, ans =>
    blockee = agentId ∧ block.purpose = .revocation ∧ ans = .ok ()
  | _, _ => False

theorem fallibly_ok {σ α : Type} {s moved s' : σ} {result : Throwing α} {a : α}
    (answered : Fallibly s moved result (.ok a) s') : result = .ok a ∧ s' = moved := by
  rcases answered with ⟨same, rfl⟩ | ⟨⟨thrown, failed⟩, -⟩
  · exact ⟨same.symm, rfl⟩
  · cases failed

theorem RegistryWorks.killed {w w' : RegistryWorld ι} {i : ι} {op : RegistryOp} {ans : op.Answer}
    (answered : RegistryWorks w i op ans w') (kind : killedBy mandateId op ans) :
    w'.store.Killed mandateId := by
  cases op with
  | get read =>
    obtain ⟨rfl, record, rfl, permanent⟩ := kind
    obtain ⟨found, rfl⟩ := fallibly_ok answered
    exact ⟨record, Except.ok.inj found, permanent⟩
  | revoke record =>
    obtain ⟨rfl, permanent, rfl⟩ := kind
    obtain ⟨-, rfl⟩ := fallibly_ok answered
    refine ⟨record, ?_, permanent⟩
    exact (MemoryRevocationStore.get_revoke record).trans (if_pos rfl)
  | _ => exact kind.elim

theorem RegistryWorks.barred {w w' : RegistryWorld ι} {i : ι} {op : RegistryOp} {ans : op.Answer}
    (answered : RegistryWorks w i op ans w') (kind : barredBy agentId op ans) :
    w'.store.Barred agentId := by
  cases op with
  | blockAgent blockee block =>
    obtain ⟨rfl, permanent, rfl⟩ := kind
    obtain ⟨-, rfl⟩ := fallibly_ok answered
    have replaced : (w.store.blockAgent blockee block).getAgentBlock blockee = _ :=
      MemoryRevocationStore.getAgentBlock_blockAgent blockee block
    cases kept : (w.store.getAgentBlock blockee).any (·.purpose = .revocation) with
    | false => exact ⟨block, replaced.trans (if_pos ⟨rfl, by simp [kept]⟩), permanent⟩
    | true =>
      obtain ⟨held, found, forGood⟩ := (Option.any_eq_true _ _).mp kept
      refine ⟨held, (replaced.trans (if_neg fun open_ => open_.2 kept)).trans found, ?_⟩
      exact of_decide_eq_true forGood
  | _ => exact kind.elim

section Kill
variable {registry : RevocationRegistry} {opts : RevokeOptions}

theorem writeKill_heard (permanent : opts.purpose.getD .revocation = .revocation) (φ : Prop) :
    (registry.writeKill mandateId agentId opts).Meets (.heard (killedBy mandateId))
      (fun φ r => r.isOk = true → φ) φ := by
  unfold RevocationRegistry.writeKill
  refine heard_bind (fun φ index _ => ?_) fun _ _ => nofun
  refine heard_bind (fun φ revokedAt _ => ?_) fun _ _ => nofun
  refine meets_orThrow_bind.mpr ((meets_perform _ _).mpr ⟨trivial, fun ans φ' moved => ?_⟩)
  cases ans with
  | error e => exact nofun
  | ok done =>
    have heard : φ' := by
      rw [show φ' = _ from moved]
      exact .inr ⟨rfl, permanent, rfl⟩
    change Meets _ _ _ φ'
    exact (meets_heard _ fun _ : True => heard).mono fun _ _ kept _ => kept trivial

theorem killLocally_heard (permanent : opts.purpose.getD .revocation = .revocation) (φ : Prop) :
    (registry.killLocally mandateId agentId opts).Meets (.heard (killedBy mandateId))
      (fun φ r => r.isOk = true → φ) φ := by
  unfold RevocationRegistry.killLocally
  refine meets_orThrow_bind.mpr ((meets_perform _ _).mpr ⟨trivial, fun ans φ' moved => ?_⟩)
  cases ans with
  | error e => exact fun failed => Bool.noConfusion failed
  | ok existing =>
    dsimp only [ThenOk]
    cases found : existing.filter (·.purpose = .revocation) with
    | none => exact heard_bind (fun φ link _ => writeKill_heard permanent φ) fun _ _ failed =>
      Bool.noConfusion failed
    | some record =>
      obtain ⟨held, forGood⟩ := Option.filter_eq_some_iff.mp found
      intro _
      rw [show φ' = _ from moved]
      exact .inr ⟨rfl, record, congrArg _ held, of_decide_eq_true forGood⟩

theorem revokeMandate_heard (permanent : opts.purpose.getD .revocation = .revocation) :
    (registry.revokeMandate mandateId opts).Meets (.heard (killedBy mandateId))
      (fun φ r => r.isOk = true → φ) False := by
  refine (meets_bracket _ _ _ _).mpr ⟨trivial, fun ans φ _ => ?_⟩
  refine (killLocally_heard permanent φ).mono fun φ r heard => ⟨trivial, fun ans φ' moved ok => ?_⟩
  rw [show φ' = _ from moved]
  exact .inl (heard ok)

theorem revokeAgent_heard (permanent : opts.purpose.getD .revocation = .revocation) :
    (registry.revokeAgent agentId opts).Meets (.heard (barredBy agentId))
      (fun φ r => r.isOk = true → φ) False := by
  refine (meets_bracket _ _ _ _).mpr ⟨trivial, fun ans φ _ => ?_⟩
  refine Meets.mono (?_ : Meets _ (fun φ r => r.isOk = true → φ) _ φ)
    fun φ r heard => ⟨trivial, fun ans φ' moved ok => ?_⟩
  · refine heard_bind (fun φ blockedAt _ => ?_) fun _ _ => nofun
    refine meets_orThrow_bind.mpr ((meets_perform _ _).mpr ⟨trivial, fun ans φ' moved => ?_⟩)
    cases ans with
    | error e => exact nofun
    | ok done =>
      have heard : φ' := by
        rw [show φ' = _ from moved]
        exact .inr ⟨rfl, permanent, rfl⟩
      change Meets _ _ _ φ'
      exact (meets_heard _ fun _ : True => heard).mono fun _ _ kept _ => kept trivial
  · rw [show φ' = _ from moved]
    exact .inl (heard ok)

end Kill

/-! ### What a check is told -/

/-- The answers that a check of an intent can get while the store says that it is dead. -/
def deadAnswer (intent : PaymentIntent) (barred : Prop) : (op : RegistryOp) → op.Answer → Prop
  | .isAgentBlocked agentId, ans => agentId = intent.agentId → barred → ∀ b, ans = .ok b → b = true
  | .get mandateId, ans => truthy intent.mandateId = some mandateId → ¬barred →
    ∀ found, ans = .ok found → found ≠ none
  | _, _ => True

theorem verdictOn_allowed : verdictOn found = .allowed ↔ found = none := by
  cases found with
  | none => exact ⟨fun _ => rfl, fun _ => rfl⟩
  | some record =>
    rw [verdictOn]
    refine ⟨fun allowed => ?_, nofun⟩
    split at allowed
    · cases allowed
    · cases allowed

theorem registryCheck_told {intent : PaymentIntent} {barred : Prop}
    (dead : barred ∨ ∃ mandateId, truthy intent.mandateId = some mandateId) :
    (registryCheck intent).Meets (.told (deadAnswer intent barred))
      (fun _ r => r ≠ .ok .allowed) () := by
  refine (meets_tryCatch _ _ _).mpr ?_
  have caught : ∀ e : Thrown,
      (checkFailed e).Meets (.told (deadAnswer intent barred)) (fun _ r => r ≠ .ok .allowed) () := by
    intro e
    refine (meets_bind _ _ _).mpr ?_
    cases errText e with
    | error thrown =>
      rintro ⟨⟩
    | ok text =>
      rintro ⟨⟩
  refine meets_orThrow_bind.mpr ((meets_perform _ _).mpr ⟨trivial, fun ans _ told => ?_⟩)
  cases ans with
  | error e => exact caught e
  | ok blocked =>
    cases blocked with
    | true =>
      rintro ⟨⟩
    | false =>
      have free : ¬barred := fun barred => Bool.noConfusion (told rfl barred false rfl)
      obtain ⟨mandateId, carried⟩ := dead.resolve_left free
      dsimp only [ThenOk]
      rw [carried]
      refine meets_orThrow_bind.mpr ((meets_perform _ _).mpr ⟨trivial, fun ans _ told => ?_⟩)
      cases ans with
      | error e => exact caught e
      | ok found =>
        intro allowed
        exact told carried free found rfl (verdictOn_allowed.mp (Except.ok.inj allowed))

/-- A pool of calls, each served by an instance. -/
abbrev serving (world : RegistryWorld ι) (calls : ι → RevocationRegistry × RegistryCall) :
    Pool RegistryOp.Answer Thrown CallResult (RegistryWorld ι) ι :=
  ⟨world, fun i => (calls i).1.serve (calls i).2⟩

section Runs
variable [DecidableEq ι] {calls : ι → RevocationRegistry × RegistryCall} {world : RegistryWorld ι}
  {pool mid final : Pool RegistryOp.Answer Thrown CallResult (RegistryWorld ι) ι}
  {events later : List (ι × Event RegistryOp.Answer)} {intent : PaymentIntent}

theorem isOk_map {f : α → β} {r : Throwing α} (ok : (r.map f).isOk = true) : r.isOk = true := by
  cases r with
  | error e => cases ok
  | ok a => rfl

/-- Once a kill has resolved, the store says so. -/
theorem dead_of_resolved (run : Run HarmlessWorks (serving world calls) events mid) {k : ι}
    (kills : Kills intent (calls k).2) (resolved : mid.threads k = .done (.ok result)) :
    Dead intent mid.world.store := by
  have starts : (serving world calls).threads k = (calls k).1.serve (calls k).2 := rfl
  cases call : (calls k).2 with
  | revokeMandate mandateId opts =>
    rw [call] at kills starts
    obtain ⟨carried, named, permanent⟩ | _ := kills
    refine .inr ⟨mandateId, ?_, ?_⟩
    · rw [carried, truthy, Option.filter_some, if_pos (by simpa using named)]
    · refine run.heard k (killedBy mandateId) (fun r => r.isOk = true) (fun w => w.store.Killed mandateId) ?_
        (fun answered kind => answered.1.killed kind) ?_ resolved rfl
      · rw [starts]
        refine (meets_map _ _ _).mpr ((revokeMandate_heard permanent).mono ?_)
        exact fun φ r heard ok => heard (isOk_map ok)
      · intro w j op ans w' killed answered
        exact answered.keeps (fun s => s.Killed mandateId) (fun harmless => harmless.killed) killed
  | revokeAgent agentId opts =>
    rw [call] at kills starts
    cases kills with
    | agent permanent =>
      refine .inl (run.heard k (barredBy intent.agentId) (fun r => r.isOk = true)
        (fun w => w.store.Barred intent.agentId) ?_ (fun answered kind => answered.1.barred kind) ?_
        resolved rfl)
      · rw [starts]
        refine (meets_map _ _ _).mpr ((revokeAgent_heard permanent).mono ?_)
        exact fun φ r heard ok => heard (isOk_map ok)
      · intro w j op ans w' barred answered
        exact answered.keeps (fun s => s.Barred intent.agentId) (fun harmless => harmless.barred) barred
  | _ =>
    rw [call] at kills
    cases kills

/-- While the store says that an intent is dead, a check of it that starts comes out as a denial. -/
theorem denied_of_dead {registry : RevocationRegistry} (run : Run HarmlessWorks mid later final) {c : ι}
    (starts : mid.threads c = registry.serve (.check intent)) (dead : Dead intent mid.world.store)
    (answered : final.threads c = .done (.ok (.verdict verdict))) : verdict ≠ .allowed := by
  have denied : ∀ (barred : Prop) (P : MemoryRevocationStore → Prop),
      (barred ∨ ∃ mandateId, truthy intent.mandateId = some mandateId) →
      (∀ {s op}, Harmless s op → P s → P (op.moves s)) → P mid.world.store →
      (∀ {w w' : RegistryWorld ι} {op ans}, P w.store → RegistryWorks w c op ans w' →
        deadAnswer intent barred op ans) → verdict ≠ .allowed := by
    rintro barred P known keeps holds tells rfl
    have told := run.told c (deadAnswer intent barred) (fun r => r ≠ .ok (.verdict .allowed))
      (fun w => P w.store) ?_ holds
      (fun held answered => answered.keeps P keeps held)
      (fun held answered => tells held answered.1) answered
    · exact told rfl
    · rw [starts]
      refine (meets_map _ _ _).mpr ((registryCheck_told known).mono ?_)
      rintro _ (e | verdict) other allowed
      · cases allowed
      · cases allowed
        exact other rfl
  rcases dead with barred | ⟨mandateId, carried, killed⟩
  · refine denied True (fun s => s.Barred intent.agentId) (.inl trivial)
      Harmless.barred barred ?_
    intro w w' op ans barred works
    cases op with
    | isAgentBlocked agentId =>
      rintro rfl - b rfl
      obtain ⟨block, found, -⟩ := barred
      obtain ⟨same, -⟩ := fallibly_ok works
      rw [← Except.ok.inj same]
      exact MemoryRevocationStore.isAgentBlocked_of_block found
    | get mandateId => exact fun _ free => absurd trivial free
    | _ => trivial
  · refine denied False (fun s => s.Killed mandateId) (.inr ⟨mandateId, carried⟩)
      Harmless.killed killed ?_
    intro w w' op ans killed works
    cases op with
    | isAgentBlocked agentId => exact fun _ barred => barred.elim
    | get read =>
      rintro same - found rfl
      obtain ⟨record, held, -⟩ := killed
      obtain ⟨got, -⟩ := fallibly_ok works
      rw [carried] at same
      cases same
      rw [← Except.ok.inj got, held]
      exact Option.some_ne_none record
    | _ => trivial

end Runs

/-- Kills are final where the outside answers so: once a permanent kill has resolved, a check of an
intent it kills that starts then comes out as a denial. -/
def KillsAreFinal [DecidableEq ι] (answers : Answers RegistryOp.Answer (RegistryWorld ι) ι) : Prop :=
  ∀ (calls : ι → RevocationRegistry × RegistryCall) (world : RegistryWorld ι) (intent : PaymentIntent)
    (k c : ι) (events later : List (ι × Event RegistryOp.Answer))
    (mid final : Pool RegistryOp.Answer Thrown CallResult (RegistryWorld ι) ι)
    (result : CallResult) (verdict : RevocationVerdict),
    Run answers (serving world calls) events mid → Kills intent (calls k).2 →
    mid.threads k = .done (.ok result) → (calls c).2 = .check intent →
    mid.threads c = (serving world calls).threads c → Run answers mid later final →
    final.threads c = .done (.ok (.verdict verdict)) → verdict ≠ .allowed

/-- A permanent kill is irreversible, across registries and in every order of steps, as long as no
lift or suspension is written over it. -/
theorem permanent_kill_denies [DecidableEq ι] : KillsAreFinal (HarmlessWorks (ι := ι)) := by
  intro calls world intent k c events later mid final result verdict before kills resolved checks
    unstarted after answered
  have starts : mid.threads c = (calls c).1.serve (.check intent) := by
    rw [unstarted, ← checks]
  exact denied_of_dead after starts (dead_of_resolved before kills resolved) answered

/-! ### Two registries on one store -/

namespace Sample

/-- An instance without a ledger that publishes nothing. -/
def instanceOf (name : ℕ) : RevocationRegistry where
  name := name
  issuer := "i"
  listId := "l"
  signs := false
  ledger := false
  entries := 131072
  zlib := ⟨fun bytes => bytes, .ok⟩

def killOptions (purpose : StatusPurpose) : RevokeOptions := ⟨none, none, some purpose⟩

/-- A mandate is suspended at one instance, then unsuspended there and killed at another; then it is
checked. -/
def calls : ℕ → RevocationRegistry × RegistryCall
  | 0 => (instanceOf 0, .revokeMandate "m-1" (killOptions .suspension))
  | 1 => (instanceOf 0, .unsuspendMandate "m-1" none)
  | 2 => (instanceOf 1, .revokeMandate "m-1" (killOptions .revocation))
  | _ => (instanceOf 1, .check (Vaduno.Sample.intent "i-1"))

def world : RegistryWorld ℕ := ⟨.empty, [], fun _ => none, fun _ => -1, fun _ => []⟩

/-- The suspension in full, the unsuspension up to its read, the kill in full. -/
def killed : Pool RegistryOp.Answer Thrown CallResult (RegistryWorld ℕ) ℕ :=
  Pool.attempt (working fun _ => true) (List.replicate 8 0 ++ [1, 1] ++ List.replicate 8 2)
    (serving world calls)

/-- Then the rest of the unsuspension, and the check. -/
def lifted : Pool RegistryOp.Answer Thrown CallResult (RegistryWorld ℕ) ℕ :=
  Pool.attempt (working fun _ => true) [1, 1, 3, 3] killed

/-- An outside that works and takes no harmful write. -/
def harmlessly (w : RegistryWorld ℕ) (i : ℕ) (op : RegistryOp) :
    Option (op.Answer × RegistryWorld ℕ) :=
  if Harmless w.store op then working (fun _ => true) w i op else none

/-- The same kill there, and then everything the unsuspension and the check still do. -/
def killedThere : Pool RegistryOp.Answer Thrown CallResult (RegistryWorld ℕ) ℕ :=
  Pool.attempt harmlessly (List.replicate 8 0 ++ [1, 1] ++ List.replicate 8 2) (serving world calls)

def checkedThere : Pool RegistryOp.Answer Thrown CallResult (RegistryWorld ℕ) ℕ :=
  Pool.attempt harmlessly [1, 1, 3, 3] killedThere

def isAllowed : Option CallResult → Bool
  | some (.verdict .allowed) => true
  | _ => false

def isRefused : Option CallResult → Bool
  | some (.verdict (.refused ..)) => true
  | _ => false

theorem settled_known : (settledWith (killed.threads 2)).isSome = true ∧
    isAllowed (settledWith (lifted.threads 3)) = true ∧
    (settledWith (killedThere.threads 2)).isSome = true ∧
    isRefused (settledWith (checkedThere.threads 3)) = true := by
  decide +kernel

theorem allowed_of_isAllowed (allowed : isAllowed (settledWith p) = true) :
    p = .done (.ok (.verdict .allowed)) := by
  cases settled : settledWith p with
  | none => rw [settled] at allowed; cases allowed
  | some result =>
    rw [settled] at allowed
    unfold isAllowed at allowed
    split at allowed
    · rename_i same
      cases same
      exact done_of_settledWith settled
    · cases allowed

theorem refused_of_isRefused (refused : isRefused (settledWith p) = true) :
    ∃ code message, p = .done (.ok (.verdict (.refused code message))) := by
  cases settled : settledWith p with
  | none => rw [settled] at refused; cases refused
  | some result =>
    rw [settled] at refused
    unfold isRefused at refused
    split at refused
    · rename_i same
      cases same
      exact ⟨_, _, done_of_settledWith settled⟩
    · cases refused

theorem kills : Kills (Vaduno.Sample.intent "i-1") (calls 2).2 := .mandate rfl nofun rfl

theorem run_harmlessly (schedule : List ℕ)
    (pool : Pool RegistryOp.Answer Thrown CallResult (RegistryWorld ℕ) ℕ) :
    ∃ events, Run HarmlessWorks pool events (Pool.attempt harmlessly schedule pool) := by
  refine Pool.run_attempt ?_ schedule pool
  intro w i op ans w' answered
  unfold harmlessly at answered
  split at answered
  · exact ⟨works_of_working _ answered, fun _ => ‹_›⟩
  · cases answered

end Sample

/-- The kill of the second instance resolves, and the check after it is answered and denies. -/
theorem kill_denies_there : ∃ events later result code message,
    Run HarmlessWorks (serving Sample.world Sample.calls) events Sample.killedThere ∧
    Sample.killedThere.threads 2 = .done (.ok result) ∧
    Run HarmlessWorks Sample.killedThere later Sample.checkedThere ∧
    Sample.checkedThere.threads 3 = .done (.ok (.verdict (.refused code message))) ∧
    RevocationVerdict.refused code message ≠ .allowed := by
  obtain ⟨result, resolved⟩ := Option.isSome_iff_exists.mp Sample.settled_known.2.2.1
  obtain ⟨code, message, refused⟩ := Sample.refused_of_isRefused Sample.settled_known.2.2.2
  obtain ⟨events, before⟩ := Sample.run_harmlessly (List.replicate 8 0 ++ [1, 1] ++ List.replicate 8 2)
    (serving Sample.world Sample.calls)
  obtain ⟨later, after⟩ := Sample.run_harmlessly [1, 1, 3, 3] Sample.killedThere
  have killed := done_of_settledWith resolved
  exact ⟨events, later, result, code, message, before, killed, after, refused,
    permanent_kill_denies Sample.calls Sample.world _ 2 3 events later _ _ result _ before
      Sample.kills killed rfl (Pool.threads_attempt (by decide)) after refused⟩

/-- The unsuspension read a suspension, and clears the permanent record that is there by then. -/
theorem kill_undone : ¬KillsAreFinal (RegistryWorks (ι := ℕ)) := by
  intro final
  obtain ⟨result, resolved⟩ := Option.isSome_iff_exists.mp Sample.settled_known.1
  obtain ⟨events, before⟩ := run_working (fun _ => true)
    (List.replicate 8 0 ++ [1, 1] ++ List.replicate 8 2) (serving Sample.world Sample.calls)
  obtain ⟨later, after⟩ := run_working (fun _ => true) [1, 1, 3, 3] Sample.killed
  exact final Sample.calls Sample.world _ 2 3 events later _ _ result .allowed before Sample.kills
    (done_of_settledWith resolved) rfl (Pool.threads_attempt (by decide)) after
    (Sample.allowed_of_isAllowed Sample.settled_known.2.1) rfl

end Vaduno.Revocation
