import Vaduno.Revocation.Hydrate
import Vaduno.Revocation.Turns

/-! What the calls of a registry do about indices: a mutation that is given an index, or finds one,
owes the ledger a row before it does anything else. -/
namespace Vaduno.Revocation
open Ecma Ledger Enforce Async

/-- A call of the registry, or one of a mandate manager that writes to the same ledger. -/
inductive LedgerCall
  | registry (call : RegistryCall)
  | managerIssue (mandateId issuer agentId : JsString) (mandate : JsValue)
  | managerRevoke (mandateId agentId : JsString) (reason : Option JsString)

/-- What a call does, as far as the registry's store and the ledger go. -/
def RevocationRegistry.work (registry : RevocationRegistry) : LedgerCall → RegistryProgram CallResult
  | .registry call => registry.serve call
  | .managerIssue mandateId issuer agentId mandate => (fun _ => .lifted) <$>
    Async.orThrow (ask (.append .mandateIssued (.object [("mandateId", .string mandateId),
      ("issuer", .string issuer), ("mandate", mandate)]) (some agentId)))
  | .managerRevoke mandateId agentId reason => (fun _ => .lifted) <$>
    Async.orThrow (ask (.append .mandateRevoked (.object [("mandateId", .string mandateId),
      ("reason", nullable reason)]) (some agentId)))

/-- The index that a row carries. -/
def carried (row : Entry) : Option Number := asNumber (field row.data "statusListIndex")

/-- A row as it will be written, but for its time. -/
def rowFor (type : EntryType) (data : JsValue) (agentId : Option JsString) : Entry :=
  ⟨[], type, ⟨none, agentId⟩, data⟩

/-- The answers of a store in memory, which never fails. -/
def InMemory : (op : RegistryOp) → op.Answer → Prop
  | .allocate .., ans | .indexOf _, ans | .agentOf _, ans | .mandatesFor _, ans | .get _, ans
  | .getAgentBlock _, ans | .isAgentBlocked _, ans | .snapshot, ans | .revoke _, ans | .clear _, ans
  | .blockAgent .., ans | .unblockAgent _, ans => ∃ a, ans = .ok a
  | _, _ => True

/-- What is left to go wrong: a clock, or an append. -/
def Fails : (op : RegistryOp) → op.Answer → Prop
  | .nowIso, .error _ | .append .., .error _ => True
  | _, _ => False

/-- A call that writes indices: past its turn or before it, in its turn with all of them in the
ledger, or in its turn with one mandate whose index the ledger may not have yet. -/
inductive IndexTurn
  | outside
  | clean
  | owing (mandateId : JsString) (index : Option ℕ)

/-- A number that is an index of the store. -/
def Shows (index : Option ℕ) (x : Number) : Prop := ∃ n : ℕ, index = some n ∧ x = (n : ℤ)

namespace IndexTurn

def Allows (self : RevocationRegistry) : IndexTurn → RegistryOp → Prop
  | outside, .enter registry | clean, .leave registry => registry = self.name
  | outside, .append type data agentId => ∀ mandateId, namedBy (rowFor type data agentId) = some mandateId →
    carried (rowFor type data agentId) = none
  | outside, op => Reads op
  | clean, .append type data agentId => namedBy (rowFor type data agentId) = none
  | owing mandateId index, .append type data agentId =>
    namedBy (rowFor type data agentId) = some mandateId ∧
      ∀ x, carried (rowFor type data agentId) = some x → Shows index x
  | owing mandateId index, .revoke record =>
    record.mandateId = mandateId ∧ ∀ x, record.index = some x → Shows index x
  | owing _ index, .leave registry => registry = self.name ∧ index = none
  | clean, .allocate _ _ capacity => capacity = self.entries
  | clean, .enter _ | clean, .revoke _ | owing .., .enter _ | owing .., .allocate .. => False
  | _, _ => True

def next : IndexTurn → (op : RegistryOp) → op.Answer → IndexTurn
  | _, .enter _, _ => clean
  | _, .leave _, _ => outside
  | clean, .allocate mandateId _ _, .ok index => owing mandateId index
  | clean, .indexOf mandateId, .ok (some index) => owing mandateId (some index)
  | owing .., .append .., _ => clean
  | owing .., .nowIso, .error _ => clean
  | φ, _, _ => φ

end IndexTurn

def indexing (registry : RevocationRegistry) : Monitor RegistryOp.Answer IndexTurn where
  allowed φ op := φ.Allows registry op
  step φ op ans φ' := φ' = φ.next op ans ∧ InMemory op ans

/-! ### What the calls do -/

section Programs
variable {registry : RevocationRegistry} {φ : IndexTurn} {mandateId : JsString}

/-- Operations that leave the indices alone in every phase. -/
def Idle : RegistryOp → Prop
  | .agentOf _ | .mandatesFor _ | .get _ | .getAgentBlock _ | .isAgentBlocked _ | .snapshot
  | .reserveVersion .. | .notePublished .. | .releaseVersion .. | .validity | .checkedSign _ => True
  | _ => False

theorem quiet_idle (idle : Idle op) : (indexing registry).Quiet φ op := by
  cases op with
  | agentOf _ | mandatesFor _ | get _ | getAgentBlock _ | isAgentBlocked _ | snapshot
  | reserveVersion _ _ | notePublished _ _ | releaseVersion _ _ | validity | checkedSign _ =>
    cases φ <;> exact ⟨trivial, fun ans φ' moved => moved.1⟩
  | _ => exact idle.elim

theorem namedBy_indexData : namedBy (rowFor .mandateIndexAssigned
    (RevocationRegistry.indexData mandateId agentId index) (some agentId)) = some mandateId := rfl

theorem carried_indexData : carried (rowFor .mandateIndexAssigned
    (RevocationRegistry.indexData mandateId agentId index) link) = some (index : ℤ) := rfl

theorem namedBy_revokedData (record : RevocationRecord) : namedBy (rowFor .mandateRevoked
    (RevocationRegistry.revokedData record) link) = some record.mandateId := rfl

theorem carried_revokedData (record : RevocationRecord) : carried (rowFor .mandateRevoked
    (RevocationRegistry.revokedData record) link) = record.index := by
  unfold carried rowFor RevocationRegistry.revokedData
  cases record.index <;> rfl

theorem quiet_view (views : Views op) : (indexing registry).Quiet .outside op := by
  cases op with
  | append type data agentId =>
    obtain rfl : type = .statusListPublished := views
    exact ⟨nofun, fun ans φ' moved => moved.1⟩
  | indexOf _ | mandatesFor _ | get _ | getAgentBlock _ | isAgentBlocked _ | snapshot
  | reserveVersion _ _ | notePublished _ _ | releaseVersion _ _ | validity | checkedSign _ =>
    exact ⟨trivial, fun ans φ' moved => moved.1⟩
  | _ => exact views.elim

/-- A part of a call that starts and ends with every index in the ledger. -/
def Tidy (registry : RevocationRegistry) (p : RegistryProgram α) : Prop :=
  p.Meets (indexing registry) (fun φ _ => φ = .clean) .clean

theorem Tidy.bind {p : RegistryProgram α} {f : α → RegistryProgram β} (first : Tidy registry p)
    (rest : ∀ a, Tidy registry (f a)) : Tidy registry (p >>= f) := by
  refine Meets.bind first ?_ fun _ _ tidy => tidy
  rintro _ a rfl
  exact rest a

theorem Tidy.of_asks {p : RegistryProgram α} (asks : p.Asks Idle fun _ => True) : Tidy registry p :=
  (asks.meets fun _ => quiet_idle).mono fun _ _ unmoved => unmoved.1

theorem Tidy.outcomeOf {p : RegistryProgram α} (tidy : Tidy registry p) : Tidy registry p.outcomeOf :=
  (Async.meets_outcomeOf p _).mpr tidy

/-- A fallible operation that leaves every index in the ledger. -/
theorem Tidy.perform {p : RegistryProgram (Throwing α)} (tidy : Tidy registry p) : Tidy registry p.orThrow :=
  (Async.meets_orThrow p _).mpr (tidy.mono fun _ _ same => same)

theorem audit_tidy (unnamed : namedBy (rowFor type data agentId) = none) :
    Tidy registry (registry.audit type data agentId) := by
  unfold RevocationRegistry.audit
  split
  · exact Tidy.perform ⟨unnamed, fun ans φ moved => moved.1⟩
  · rfl

/-- A row that the ledger is owed. -/
theorem audit_owed (index : Option ℕ) (ledger : registry.ledger = true)
    (named : namedBy (rowFor type data agentId) = some mandateId)
    (shows : ∀ x, carried (rowFor type data agentId) = some x → Shows index x) :
    (registry.audit type data agentId).Meets (indexing registry) (fun φ _ => φ = .clean)
      (.owing mandateId index) := by
  unfold RevocationRegistry.audit
  rw [if_pos ledger]
  exact (Async.meets_orThrow _ _).mpr ⟨⟨named, shows⟩, fun ans φ moved => moved.1⟩

/-- A kill's index is owed to the ledger from the moment it is known. -/
theorem killIndex_owes : (registry.killIndex mandateId link).Meets (indexing registry)
    (fun φ r => ∃ index, r = .ok index ∧ φ = .owing mandateId index) .clean := by
  unfold RevocationRegistry.killIndex
  refine meets_orThrow_bind.mpr ((meets_perform _ _).mpr ⟨trivial, ?_⟩)
  rintro ans _ ⟨rfl, found, rfl⟩
  cases found with
  | some index => exact ⟨_, rfl, rfl⟩
  | none =>
    refine (Async.meets_orThrow _ _).mpr ⟨rfl, ?_⟩
    rintro ans _ ⟨rfl, index, rfl⟩
    exact ⟨index, rfl, rfl⟩

theorem shows_map (index : Option ℕ) (x : Number)
    (shown : index.map (fun n : ℕ => ((n : ℤ) : Number)) = some x) : Shows index x := by
  obtain ⟨n, known, rfl⟩ := Option.map_eq_some_iff.mp shown
  exact ⟨n, known, rfl⟩

theorem writeKill_tidy (ledger : registry.ledger = true) :
    Tidy registry (registry.writeKill mandateId link opts) := by
  unfold RevocationRegistry.writeKill
  refine Meets.bind killIndex_owes ?_ ?_
  · rintro _ found ⟨index, same, rfl⟩
    obtain rfl := Except.ok.inj same
    refine meets_orThrow_bind.mpr ((meets_perform _ _).mpr ⟨trivial, ?_⟩)
    rintro ans _ ⟨rfl, -⟩
    cases ans with
    | error e => exact rfl
    | ok revokedAt =>
      refine meets_orThrow_bind.mpr ((meets_perform _ _).mpr ⟨⟨rfl, shows_map found⟩, ?_⟩)
      rintro ans _ ⟨rfl, done, rfl⟩
      refine Meets.bind (audit_owed found ledger (namedBy_revokedData _) ?_) ?_
        fun _ _ tidy => tidy
      · intro x shown
        rw [carried_revokedData] at shown
        exact shows_map found x shown
      · rintro _ _ rfl
        exact rfl
  · rintro _ e ⟨index, failed, -⟩
    cases failed

theorem killAgent_idle : (RevocationRegistry.killAgent mandateId link).Asks Idle fun _ => True := by
  cases link with
  | none => exact Asks.orThrow (Asks.perform trivial)
  | some agentId => trivial

theorem killLocally_tidy (ledger : registry.ledger = true) :
    Tidy registry (registry.killLocally mandateId link opts) := by
  refine (Tidy.of_asks (Asks.orThrow (Asks.perform trivial))).bind fun existing => ?_
  beta_reduce
  cases existing.filter (·.purpose = .revocation) with
  | some record => exact rfl
  | none => exact (Tidy.of_asks killAgent_idle).bind fun link => writeKill_tidy ledger

theorem killAll_tidy (ledger : registry.ledger = true) (mandateIds : List JsString)
    (out : List RevocationResult) (failures : List (JsString × JsString)) :
    Tidy registry (registry.killAll agentId opts mandateIds out failures) := by
  induction mandateIds generalizing out failures with
  | nil => exact rfl
  | cons mandateId rest ih =>
    refine (killLocally_tidy ledger).outcomeOf.bind fun outcome => ?_
    cases outcome with
    | ok result => exact ih _ _
    | error err => exact Tidy.bind (p := Async.settled (errText err)) rfl fun text => ih _ _

theorem blockAndKill_tidy (ledger : registry.ledger = true) :
    Tidy registry (registry.blockAndKill agentId opts) := by
  refine (Tidy.perform (p := RevocationRegistry.ask .nowIso)
    ⟨trivial, fun ans φ moved => moved.1⟩).bind fun blockedAt => ?_
  refine (Tidy.perform (p := RevocationRegistry.ask (.blockAgent agentId _))
    ⟨trivial, fun ans φ moved => moved.1⟩).bind fun _ => ?_
  refine (audit_tidy rfl).bind fun _ => ?_
  refine (Tidy.of_asks (Asks.orThrow (Asks.perform trivial))).bind fun mandateIds => ?_
  refine (killAll_tidy ledger mandateIds [] []).bind fun killed => ?_
  refine Tidy.bind ?_ fun _ => rfl
  unfold RevocationRegistry.auditPartial
  split
  · exact rfl
  · exact audit_tidy rfl

/-- A call whose body is tidy keeps its turn and leaves nothing owed. -/
theorem run_tidy {p : RegistryProgram α} (tidy : p.Meets (indexing registry)
      (fun φ _ => φ = .clean ∨ ∃ mandateId, φ = .owing mandateId none) .clean) :
    (registry.run p).Meets (indexing registry) (fun _ _ => True) .outside := by
  refine (meets_bracket _ _ _ _).mpr ⟨rfl, ?_⟩
  rintro ans _ ⟨rfl, -⟩
  refine tidy.mono ?_
  rintro _ r (rfl | ⟨mandateId, rfl⟩)
  · exact ⟨rfl, fun _ _ _ => trivial⟩
  · exact ⟨⟨rfl, rfl⟩, fun _ _ _ => trivial⟩

theorem serve_indexing (ledger : registry.ledger = true) (call : RegistryCall) :
    (registry.serve call).Meets (indexing registry) (fun _ _ => True) .outside := by
  have mapped : ∀ {α : Type} {f : α → CallResult} {p : RegistryProgram α},
      p.Meets (indexing registry) (fun _ _ => True) .outside →
      (f <$> p).Meets (indexing registry) (fun _ _ => True) .outside :=
    fun meets => (meets_map _ _ _).mpr meets
  have viewing : ∀ {α : Type} {p : RegistryProgram α}, p.Asks Views (fun _ => True) →
      p.Meets (indexing registry) (fun _ _ => True) .outside :=
    fun asks => (asks.meets fun _ => quiet_view).mono fun _ _ _ => trivial
  have tidied : ∀ {α : Type} {p : RegistryProgram α}, Tidy registry p →
      (registry.run p).Meets (indexing registry) (fun _ _ => True) .outside :=
    fun tidy => run_tidy (tidy.mono fun _ _ clean => .inl clean)
  cases call with
  | assignIndex mandateId agentId =>
    refine mapped (run_tidy ?_)
    refine meets_orThrow_bind.mpr ((meets_perform _ _).mpr ⟨rfl, ?_⟩)
    rintro ans _ ⟨rfl, index, rfl⟩
    cases index with
    | none => exact .inr ⟨mandateId, rfl⟩
    | some index =>
      refine Meets.bind (audit_owed (some index) ledger namedBy_indexData ?_) ?_
        fun _ _ tidy => .inl tidy
      · rintro x shown
        cases shown
        exact ⟨index, rfl, rfl⟩
      · rintro _ _ rfl
        exact .inl rfl
  | revokeMandate mandateId opts => exact mapped (tidied (killLocally_tidy ledger))
  | revokeAgent agentId opts => exact mapped (tidied (blockAndKill_tidy ledger))
  | unsuspendMandate mandateId byWhom =>
    refine mapped (tidied ?_)
    refine (Tidy.of_asks (Asks.orThrow (Asks.perform trivial))).bind fun found => ?_
    cases found with
    | none => exact rfl
    | some record =>
      rw [RevocationRegistry.liftRecord]
      split
      · exact rfl
      · exact (Tidy.perform (p := RevocationRegistry.ask (.clear mandateId))
          ⟨trivial, fun ans φ moved => moved.1⟩).bind fun _ => audit_tidy rfl
  | unblockAgent agentId byWhom =>
    refine mapped (tidied ?_)
    refine (Tidy.of_asks (Asks.orThrow (Asks.perform trivial))).bind fun found => ?_
    cases found with
    | none => exact rfl
    | some block =>
      rw [RevocationRegistry.liftBlock]
      split
      · exact rfl
      · exact (Tidy.perform (p := RevocationRegistry.ask (.unblockAgent agentId))
          ⟨trivial, fun ans φ moved => moved.1⟩).bind fun _ => audit_tidy rfl
  | publish version purpose => exact mapped (viewing publish_asks)
  | check intent => exact mapped (viewing (registryCheck_asks.widen fun _ => Looks.views))

theorem work_indexing (ledger : registry.ledger = true) (call : LedgerCall) :
    (registry.work call).Meets (indexing registry) (fun _ _ => True) .outside := by
  cases call with
  | registry call => exact serve_indexing ledger call
  | managerIssue mandateId issuer agentId mandate =>
    exact (meets_map _ _ _).mpr ((Async.meets_orThrow _ _).mpr ⟨nofun, fun _ _ _ => trivial⟩)
  | managerRevoke mandateId agentId reason =>
    exact (meets_map _ _ _).mpr ((Async.meets_orThrow _ _).mpr
      ⟨fun _ _ => rfl, fun _ _ _ => trivial⟩)

end Programs

end Vaduno.Revocation
