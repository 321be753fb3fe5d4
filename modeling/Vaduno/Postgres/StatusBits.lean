import Vaduno.Postgres.RevocationStore

/-! One status bit per mandate in the shared tables, over runs of any calls of any number of processes
in any order. Only the holder of the advisory lock gives out an index, the one after the highest; links
come in between and touch no index. -/
namespace Vaduno.Postgres
open Ecma Enforce Revocation Async

/-! ### What each write does to each column -/

namespace RevocationTables
variable {t : RevocationTables}

theorem idxOf_putIndex (row : IndexRow) :
    (t.putIndex row).idxOf = Function.update t.idxOf row.mandateId row.idx := by
  funext m
  rw [idxOf, putIndex, Keyed.find_put]
  rcases eq_or_ne m row.mandateId with rfl | other
  · rw [if_pos rfl, Function.update_self]
    rfl
  · rw [if_neg other.symm, Function.update_of_ne other]
    rfl

theorem agentOf_putIndex (row : IndexRow) :
    (t.putIndex row).agentOf = Function.update t.agentOf row.mandateId row.agentId := by
  funext m
  rw [agentOf, putIndex, Keyed.find_put]
  rcases eq_or_ne m row.mandateId with rfl | other
  · rw [if_pos rfl, Function.update_self]
    rfl
  · rw [if_neg other.symm, Function.update_of_ne other]
    rfl

theorem idxOf_linkIndex (m a : JsString) : (t.linkIndex m a).idxOf = t.idxOf := by
  rw [linkIndex, idxOf_putIndex, Function.update_eq_self]

theorem agentOf_linkIndex (m a : JsString) :
    (t.linkIndex m a).agentOf = Function.update t.agentOf m (some a) := by
  rw [linkIndex, agentOf_putIndex]

theorem mem_mandatesFor : m ∈ t.mandatesFor a ↔ t.agentOf m = some a := by
  simp only [mandatesFor, List.mem_map, List.mem_filter, decide_eq_true_eq, agentOf,
    Option.bind_eq_some_iff]
  constructor
  · rintro ⟨row, ⟨member, own⟩, rfl⟩
    exact ⟨row, Keyed.mem_rows.mp member, own⟩
  · rintro ⟨row, found, own⟩
    obtain ⟨member, rfl⟩ := Keyed.find_eq_some.mp found
    exact ⟨row, ⟨member, own⟩, rfl⟩

theorem idxOf_of_mem {row : IndexRow} (member : row ∈ t.index.rows) : t.idxOf row.mandateId = row.idx := by
  rw [idxOf, Keyed.mem_rows.mp member]
  rfl

theorem mem_indices : n ∈ t.index.rows.filterMap (·.idx) ↔ ∃ m, t.idxOf m = some n := by
  rw [List.mem_filterMap]
  constructor
  · rintro ⟨row, member, own⟩
    exact ⟨row.mandateId, (idxOf_of_mem member).trans own⟩
  · rintro ⟨m, held⟩
    obtain ⟨row, found, own⟩ := Option.bind_eq_some_iff.mp held
    exact ⟨row, (Keyed.find_eq_some.mp found).1, own⟩

/-- The number after the highest. -/
def succIdx : Option ℕ → ℕ
  | none => 0
  | some highest => highest + 1

/-- Where the indices are packed, the one after the highest is the first that is free. -/
theorem succIdx_maxIdx (packed : Packed t.idxOf size) : succIdx t.maxIdx = size := by
  have below : ∀ n ∈ t.index.rows.filterMap (·.idx), n < size := fun n member =>
    packed.dense.mpr (mem_indices.mp member)
  cases highest : t.maxIdx with
  | none =>
    rw [maxIdx, List.max?_eq_none_iff] at highest
    refine (Nat.eq_zero_of_not_pos fun positive => ?_).symm
    have member := mem_indices.mpr (packed.dense.mp positive)
    rw [highest] at member
    cases member
  | some n =>
    obtain ⟨member, above⟩ := List.max?_eq_some_iff.mp highest
    have inside := below n member
    refine le_antisymm inside (Nat.le_of_not_lt fun beyond => ?_)
    have next := mem_indices.mpr (packed.dense.mp beyond)
    have := above _ next
    simp only [succIdx] at this
    omega

/-- No write takes an index away. -/
theorem idxOf_write {write : IndexWrite} (written : t.write write = some t') (held : t.idxOf m = some n) :
    t'.idxOf m = some n := by
  cases write with
  | updateAgent mandateId agentId =>
    cases found : t.index.find mandateId with
    | none =>
      rw [RevocationTables.write, found] at written
      cases written
      exact held
    | some row =>
      rw [RevocationTables.write, found] at written
      cases written
      obtain ⟨member, rfl⟩ := Keyed.find_eq_some.mp found
      rw [idxOf_putIndex, ← idxOf_of_mem member, Function.update_eq_self]
      exact held
  | insertIndex mandateId idx agentId =>
    rw [RevocationTables.write] at written
    split at written
    · cases written
    · cases written
      rw [idxOf_putIndex]
      rcases eq_or_ne m mandateId with rfl | other
      · rw [Function.update_self, held]
        rfl
      · rw [Function.update_of_ne other]
        exact held

/-- An update of the agent of a mandate that has an index. -/
theorem write_updateAgent (held : t.idxOf m = some n) (a : JsString) :
    ∃ t', t.write (.updateAgent m a) = some t' ∧ t'.idxOf = t.idxOf ∧
      t'.agentOf = Function.update t.agentOf m (some a) := by
  obtain ⟨row, found, own⟩ := Option.bind_eq_some_iff.mp held
  obtain ⟨member, rfl⟩ := Keyed.find_eq_some.mp found
  refine ⟨t.putIndex { row with agentId := a }, by rw [RevocationTables.write, found], ?_, ?_⟩
  · rw [idxOf_putIndex, ← idxOf_of_mem member, Function.update_eq_self]
  · rw [agentOf_putIndex]

/-- The first free index goes to a mandate that has none. -/
theorem write_insertIndex (packed : Packed t.idxOf n) (free : t.idxOf m = none)
    (agentId : Option JsString) :
    ∃ t', t.write (.insertIndex m n agentId) = some t' ∧
      t'.idxOf = Function.update t.idxOf m (some n) ∧
      t'.agentOf = Function.update t.agentOf m (agentId.or (t.agentOf m)) := by
  have unused : ¬t.index.rows.any (fun row => row.mandateId ≠ m ∧ row.idx = some n) = true := by
    rw [List.any_eq_true]
    rintro ⟨row, member, clash⟩
    rw [decide_eq_true_eq] at clash
    have := packed.dense.mpr ⟨_, (idxOf_of_mem member).trans clash.2⟩
    omega
  refine ⟨t.putIndex ⟨m, some n, agentId.or (t.agentOf m)⟩, ?_, idxOf_putIndex _, agentOf_putIndex _⟩
  rw [RevocationTables.write, free]
  exact if_neg unused

end RevocationTables

/-! ### Calls -/

inductive RevocationCall
  | allocate (mandateId : JsString) (agentId : Option JsString) (capacity : Number)
  | indexOf (mandateId : JsString)
  | link (mandateId agentId : JsString)
  | mandatesFor (agentId : JsString)
  | revoke (record : RevocationRecord)
  | clear (mandateId : JsString)
  | blockAgent (agentId : JsString) (block : AgentBlock)
  | unblockAgent (agentId : JsString)

inductive RevocationAnswer
  | index (idx : Option ℕ)
  | mandates (ids : List JsString)
  | done

section Calls
variable (bindText : JsString → Throwing JsString)

namespace RevocationCall

def program : RevocationCall → TableProgram RevocationAnswer
  | .allocate mandateId agentId capacity =>
    .index <$> PostgresRevocationStore.allocate bindText mandateId agentId capacity
  | .indexOf mandateId => .index <$> PostgresRevocationStore.indexOf bindText mandateId
  | .link mandateId agentId =>
    (fun _ => .done) <$> PostgresRevocationStore.link bindText mandateId agentId
  | .mandatesFor agentId => .mandates <$> PostgresRevocationStore.mandatesFor bindText agentId
  | .revoke record => (fun _ => .done) <$> PostgresRevocationStore.revoke bindText record
  | .clear mandateId => (fun _ => .done) <$> PostgresRevocationStore.clear bindText mandateId
  | .blockAgent agentId block =>
    (fun _ => .done) <$> PostgresRevocationStore.blockAgent bindText agentId block
  | .unblockAgent agentId =>
    (fun _ => .done) <$> PostgresRevocationStore.unblockAgent bindText agentId

/-- The mandate and the agent that the call associates. -/
def association : RevocationCall → Option (JsString × JsString)
  | .allocate mandateId agentId _ => agentId.map fun agentId => (mandateId, agentId)
  | .link mandateId agentId => some (mandateId, agentId)
  | _ => none

/-- The text reaches the database unchanged, or is refused. -/
def Intact (text : JsString) : Prop := ∀ bound, bindText text = .ok bound → bound = text

/-- The mandate and the agent of an allocation or a link are intact. -/
def Carried : RevocationCall → Prop
  | .allocate mandateId agentId _ => Intact bindText mandateId ∧ ∀ a ∈ agentId, Intact bindText a
  | .link mandateId agentId => Intact bindText mandateId ∧ Intact bindText agentId
  | _ => True

end RevocationCall
end Calls

/-! ### The database -/

structure TableWorld (ι : Type) where
  tables : RevocationTables
  /-- Whose transaction has the advisory lock. -/
  holder : Option ι

namespace TableWorld
variable {ι : Type} (w : TableWorld ι)

def withTables (tables : RevocationTables) : TableWorld ι := { w with tables := tables }

/-- A write that the tables take, unless it fails before; or one that they refuse. -/
def Writes (moved : Option RevocationTables) (ans : Written) (w' : TableWorld ι) : Prop :=
  match moved with
  | some t' => w' = if ans.landed then w.withTables t' else w
  | none => ans.landed = false ∧ w' = w

end TableWorld

/-- How the database answers: each statement takes effect at once, and may fail. -/
def tableAnswers {ι : Type} : Answers TableOp.Answer (TableWorld ι) ι
  | w, i, .lock, ans, w' => (ans = .ok () ∧ w.holder = none ∧ w' = { w with holder := some i }) ∨
    (ans ≠ .ok () ∧ w' = w)
  | w, _, .unlock, _, w' => w' = { w with holder := none }
  | w, _, .selectIdx mandateId, ans, w' =>
    Fallibly w w (.ok ((w.tables.index.find mandateId).map (·.idx))) ans w'
  | w, _, .selectMax, ans, w' => Fallibly w w (.ok w.tables.maxIdx) ans w'
  | w, _, .selectMandates agentId, ans, w' =>
    Fallibly w w (.ok (w.tables.mandatesFor agentId)) ans w'
  | w, _, .commit none, _, w' => w' = w
  | w, _, .commit (some write), ans, w' => w.Writes (w.tables.write write) ans w'
  | w, _, .linkIndex mandateId agentId, ans, w' =>
    w.Writes (some (w.tables.linkIndex mandateId agentId)) ans w'
  | w, _, .linkRecord mandateId agentId, ans, w' =>
    w.Writes (some (w.tables.linkRecord mandateId agentId)) ans w'
  | w, _, .upsertRecord row, ans, w' => w.Writes (some (w.tables.upsertRecord row)) ans w'
  | w, _, .deleteRecord mandateId, ans, w' =>
    w.Writes (some (w.tables.deleteRecord mandateId)) ans w'
  | w, _, .upsertBlock agentId block, ans, w' =>
    w.Writes (some (w.tables.upsertBlock agentId block)) ans w'
  | w, _, .deleteBlock agentId, ans, w' => w.Writes (some (w.tables.deleteBlock agentId)) ans w'

/-- Whether the answered statement has written the agent of a mandate. -/
def TableOp.Associates : (op : TableOp) → op.Answer → Bool
  | .commit (some (.updateAgent ..)), ans | .commit (some (.insertIndex _ _ (some _))), ans
  | .linkIndex .., ans => ans.landed
  | _, _ => false

/-- The associations of a run, in order: those of the calls, where they were written. -/
def tableAssociations {ι : Type} (calls : ι → RevocationCall)
    (events : List (ι × Event TableOp.Answer)) : List (JsString × JsString) :=
  events.filterMap fun e => if e.2.1.Associates e.2.2 then (calls e.1).association else none

/-- Whether the operation writes something. -/
def TableOp.Modifies : TableOp → Bool
  | .lock | .unlock | .selectIdx _ | .selectMax | .selectMandates _ | .commit none => false
  | _ => true

/-! ### The lock -/

/-- A call without the lock, which may have learned the index of its mandate; or one with the lock: it
knows nothing, or that a mandate has an index, or none, or none and which index comes next. -/
inductive LockPlace
  | outside (learned : Option (JsString × ℕ))
  | inside
  | held (mandateId : JsString) (idx : ℕ)
  | free (mandateId : JsString)
  | next (mandateId : JsString) (idx : ℕ)

namespace LockPlace

def isOutside : LockPlace → Bool
  | outside _ => true
  | _ => false

def leave : LockPlace → LockPlace
  | held mandateId idx => outside (some (mandateId, idx))
  | _ => outside none

/-- A write of the index table comes from a call that knows what it writes over: an agent over the row
of a mandate with an index, and an index where there is none, within the room there is. -/
def Allows (call : RevocationCall) (room : ℕ → Prop) (φ : LockPlace) : TableOp → Prop
  | .lock => φ.isOutside
  | .unlock => φ.isOutside = false
  | .commit (some (.updateAgent mandateId agentId)) =>
    (∃ idx, φ = held mandateId idx) ∧ call.association = some (mandateId, agentId)
  | .commit (some (.insertIndex mandateId idx agentId)) => φ = next mandateId idx ∧ room idx ∧
    call.association = agentId.map fun agentId => (mandateId, agentId)
  | .linkIndex mandateId agentId => call.association = some (mandateId, agentId)
  | _ => True

def step : LockPlace → (op : TableOp) → op.Answer → LockPlace
  | _, .lock, .ok _ => inside
  | φ, .unlock, _ => φ.leave
  | inside, .selectIdx mandateId, .ok found =>
    match found with
    | some (some idx) => held mandateId idx
    | _ => free mandateId
  | free mandateId, .selectMax, .ok highest => next mandateId (RevocationTables.succIdx highest)
  | next mandateId idx, .commit (some _), ans =>
    match ans with
    | .done => held mandateId idx
    | .failed .. => inside
  | φ, _, _ => φ

end LockPlace

def locking (call : RevocationCall) (room : ℕ → Prop) : Monitor TableOp.Answer LockPlace where
  allowed φ op := φ.Allows call room op
  step φ op ans φ' := φ' = φ.step op ans

section Programs
open PostgresRevocationStore
variable {bindText : JsString → Throwing JsString} {call : RevocationCall} {room : ℕ → Prop}

theorem meets_wrote {M : Monitor TableOp.Answer Φ} {post : Φ → Throwing β → Prop}
    {p : TableProgram Written} {f : Unit → TableProgram β} {φ : Φ} :
    (wrote p >>= f).Meets M post φ ↔
      p.Meets M (fun φ r => ThenOk M post f φ (r.map Written.outcome)) φ := by
  rw [wrote, meets_orThrow_bind, meets_map]

/-- A statement that any call may run. -/
def Plain : TableOp → Prop
  | .selectIdx _ | .selectMandates _ | .linkRecord .. | .upsertRecord _ | .deleteRecord _
  | .upsertBlock .. | .deleteBlock _ => True
  | _ => False

/-- Outside the lock such statements lead nowhere. -/
theorem quiet_plain (plain : Plain op) : (locking call room).Quiet (.outside learned) op := by
  cases op with
  | lock | unlock | selectMax | commit _ | linkIndex _ _ => exact plain.elim
  | _ => exact ⟨trivial, fun _ _ moved => moved⟩

theorem wrote_asks {kind : TableOp → Prop} {p : TableProgram Written} (asks : p.Asks kind fun _ => True) :
    (wrote p).Asks kind fun _ => True :=
  Asks.orThrow (Asks.map _ asks)

theorem meets_transaction {M : Monitor TableOp.Answer Φ} {post : Φ → Throwing α → Prop}
    {p : TableProgram α} {φ : Φ} (opens : M.allowed φ .lock)
    (body : ∀ φ', M.step φ .lock (.ok ()) φ' → p.Meets M (fun φ r => M.allowed φ .unlock ∧
      ∀ ans φ', M.step φ .unlock ans φ' → post φ' r) φ')
    (failed : ∀ e φ', M.step φ .lock (.error e) φ' → post φ' (.error e)) :
    (inTransaction p).Meets M post φ := by
  refine meets_orThrow_bind.mpr ⟨opens, ?_⟩
  rintro (e | ⟨⟩) φ' moved
  · exact failed e φ' moved
  change (p.outcomeOf >>= _).Meets M post φ'
  rw [meets_bind, Async.meets_outcomeOf]
  exact body φ' moved

theorem meets_inTransaction {post : LockPlace → Throwing α → Prop} {p : TableProgram α}
    (body : p.Meets (locking call room) (fun φ r => φ.isOutside = false ∧ post φ.leave r) .inside)
    (failed : ∀ e, post (.outside none) (.error e)) :
    (inTransaction p).Meets (locking call room) post (.outside none) := by
  refine meets_transaction rfl ?_ ?_
  · rintro _ rfl
    refine body.mono fun φ r ⟨inside, settled⟩ => ⟨inside, ?_⟩
    rintro ans _ rfl
    exact settled
  · rintro e _ rfl
    exact failed e

/-- What an allocation has in the end: the index it answers is that of its mandate. -/
def Allotted (mandateId : JsString) (φ : LockPlace) (r : Throwing (Option ℕ)) : Prop :=
  φ.isOutside = false ∧ ∀ n, r = .ok (some n) → φ = .held mandateId n

theorem step_commit_held (write : Option IndexWrite) (ans : Written) :
    (LockPlace.held m n).step (.commit write) ans = .held m n := by
  cases write <;> rfl

theorem keepIndex_locking {mandateId : JsString} {agentId : Option JsString} {capacity : Number}
    (carried : ∀ a ∈ agentId, RevocationCall.Intact bindText a) :
    (keepIndex bindText mandateId agentId idx).Meets
      (locking (.allocate mandateId agentId capacity) room) (Allotted mandateId)
      (.held mandateId idx) := by
  have finish : ∀ write, LockPlace.Allows (.allocate mandateId agentId capacity) room
      (.held mandateId idx) (.commit write) →
      (do
        let index ← Async.settled (safeIndex idx "idx")
        wrote (TableOp.ask (.commit write))
        return some index : TableProgram (Option ℕ)).Meets
        (locking (.allocate mandateId agentId capacity) room) (Allotted mandateId)
        (.held mandateId idx) := by
    intro write allowed
    cases safe : toSafeInt idx "idx" with
    | error e =>
      rw [safeIndex, safe]
      exact ⟨rfl, nofun⟩
    | ok n =>
      rw [safeIndex, safe]
      refine meets_wrote.mpr ⟨allowed, ?_⟩
      rintro ans _ rfl
      rw [step_commit_held]
      cases ans with
      | done =>
        refine ⟨rfl, ?_⟩
        rintro n ⟨⟩
        rfl
      | failed thrown landed => exact ⟨rfl, nofun⟩
  cases agentId with
  | none => exact finish none trivial
  | some a =>
    cases bound : bindText a with
    | error e =>
      rw [keepIndex, agentWrite, bound]
      exact ⟨rfl, nofun⟩
    | ok a' =>
      cases carried a rfl a' bound
      rw [keepIndex, agentWrite, bound]
      exact finish (some (.updateAgent mandateId a)) ⟨⟨idx, rfl⟩, rfl⟩

theorem nextIndex_ok {highest : Option ℕ} (next : nextIndex highest = .ok n) :
    n = RevocationTables.succIdx highest := by
  cases highest with
  | none =>
    cases next
    rfl
  | some h =>
    cases safe : toSafeInt h "max(idx)" with
    | error e =>
      rw [nextIndex, safeIndex, safe] at next
      cases next
    | ok number =>
      rw [nextIndex, safeIndex, safe] at next
      cases next
      rfl

theorem giveIndex_locking {mandateId : JsString} {agentId : Option JsString} {capacity : Number}
    (carried : ∀ a ∈ agentId, RevocationCall.Intact bindText a)
    (roomy : ∀ n : ℕ, ¬capacity ≤ (n : ℤ) → room n) :
    (giveIndex bindText mandateId agentId capacity).Meets
      (locking (.allocate mandateId agentId capacity) room) (Allotted mandateId)
      (.free mandateId) := by
  refine meets_orThrow_bind.mpr ⟨trivial, ?_⟩
  rintro (e | highest) _ rfl
  · exact ⟨rfl, by rintro _ ⟨⟩⟩
  simp only [meets_done, ThenOk]
  cases counted : nextIndex highest with
  | error e => exact ⟨rfl, by rintro _ ⟨⟩⟩
  | ok next =>
    change (if capacity ≤ ((next : ℤ) : Number) then _ else _ : TableProgram (Option ℕ)).Meets _ _
      (LockPlace.next mandateId (RevocationTables.succIdx highest))
    rw [← nextIndex_ok counted]
    split
    · refine meets_wrote.mpr ⟨trivial, ?_⟩
      rintro (_ | _) _ rfl <;> exact ⟨rfl, by rintro _ ⟨⟩⟩
    · rename_i space
      have insert : ∀ agent, agent = agentId → (do
          wrote (TableOp.ask (.commit (some (.insertIndex mandateId next agent))))
          return some next : TableProgram (Option ℕ)).Meets
          (locking (.allocate mandateId agentId capacity) room) (Allotted mandateId)
          (.next mandateId next) := by
        rintro agent rfl
        refine meets_wrote.mpr ⟨⟨rfl, roomy next space, rfl⟩, ?_⟩
        rintro (_ | _) _ rfl
        · refine ⟨rfl, ?_⟩
          rintro n ⟨⟩
          rfl
        · exact ⟨rfl, by rintro _ ⟨⟩⟩
      cases agentId with
      | none => exact insert none rfl
      | some a =>
        cases bound : bindText a with
        | error e =>
          rw [Option.mapM_some, bound]
          exact ⟨rfl, by rintro _ ⟨⟩⟩
        | ok a' =>
          cases carried a rfl a' bound
          rw [Option.mapM_some, bound]
          exact insert (some a) rfl

theorem allocate_locking {mandateId : JsString} {agentId : Option JsString} {capacity : Number}
    (carried : (RevocationCall.allocate mandateId agentId capacity).Carried bindText)
    (roomy : ∀ n : ℕ, ¬capacity ≤ (n : ℤ) → room n) :
    (allocate bindText mandateId agentId capacity).Meets
      (locking (.allocate mandateId agentId capacity) room)
      (fun φ r => ∀ n, r = .ok (some n) → φ = .outside (some (mandateId, n))) (.outside none) := by
  refine meets_inTransaction ?_ nofun
  have body : ∀ p : TableProgram (Option ℕ), p.Meets
      (locking (.allocate mandateId agentId capacity) room) (Allotted mandateId) .inside →
      p.Meets (locking (.allocate mandateId agentId capacity) room) (fun φ r =>
        φ.isOutside = false ∧ ∀ n, r = .ok (some n) → φ.leave = .outside (some (mandateId, n)))
        .inside := by
    intro p meets
    refine meets.mono fun φ r allotted => ⟨allotted.1, fun n same => ?_⟩
    rw [allotted.2 n same]
    rfl
  refine body _ ?_
  cases bound : bindText mandateId with
  | error e => exact ⟨rfl, nofun⟩
  | ok mandate =>
    cases carried.1 mandate bound
    refine meets_orThrow_bind.mpr ⟨trivial, ?_⟩
    rintro (e | found) _ rfl
    · exact ⟨rfl, nofun⟩
    match found with
    | none | some none => exact giveIndex_locking carried.2 roomy
    | some (some idx) => exact keepIndex_locking carried.2

theorem link_locking {mandateId agentId : JsString}
    (carried : (RevocationCall.link mandateId agentId).Carried bindText) :
    (link bindText mandateId agentId).Meets (locking (.link mandateId agentId) room)
      (fun φ _ => φ = .outside none) (.outside none) := by
  cases bound : bindText mandateId with
  | error e =>
    rw [link, bound]
    rfl
  | ok mandate =>
    cases linked : bindText agentId with
    | error e =>
      rw [link, bound, linked]
      rfl
    | ok agent =>
      rw [link, bound, linked]
      cases carried.1 mandate bound
      cases carried.2 agent linked
      refine meets_wrote.mpr ⟨rfl, ?_⟩
      rintro (_ | _) _ rfl
      · refine ((wrote_asks (Asks.perform trivial)).meets fun _ => quiet_plain).mono ?_
        exact fun _ _ unmoved => unmoved.1
      · rfl

/-- A text is bound, and then one plain statement is run. -/
theorem bound_asks {r : Throwing β} {f : β → TableProgram α}
    (rest : ∀ b, (f b).Asks Plain fun _ => True) :
    (Async.settled r >>= f).Asks Plain fun _ => True := by
  cases r with
  | error e => trivial
  | ok b => exact rest b

theorem call_locking (carried : call.Carried bindText)
    (roomy : ∀ m l c, call = .allocate m l c → ∀ n : ℕ, ¬c ≤ (n : ℤ) → room n) :
    (call.program bindText).Meets (locking call room) (fun φ r => ∀ m l c n,
      call = .allocate m l c → r = .ok (.index (some n)) → φ = .outside (some (m, n)))
      (.outside none) := by
  have plain : ∀ {p : TableProgram RevocationAnswer}, p.Asks Plain (fun _ => True) →
      (∀ m l c, call ≠ .allocate m l c) → p.Meets (locking call room) (fun φ r => ∀ m l c n,
        call = .allocate m l c → r = .ok (.index (some n)) → φ = .outside (some (m, n)))
        (.outside none) := fun asks other =>
    (asks.meets fun _ => quiet_plain).mono fun _ _ _ m l c n same => absurd same (other m l c)
  cases call with
  | allocate mandateId agentId capacity =>
    refine (meets_map _ _ _).mpr ((allocate_locking carried (roomy _ _ _ rfl)).mono ?_)
    rintro φ r settled m l c n ⟨⟩ same
    cases r with
    | error e => cases same
    | ok found =>
      cases same
      exact settled n rfl
  | link mandateId agentId =>
    exact (meets_map _ _ _).mpr ((link_locking carried).mono fun _ _ _ m l c n same => nomatch same)
  | indexOf mandateId =>
    refine plain (Asks.map _ (bound_asks fun mandate => ?_)) fun _ _ _ same => nomatch same
    refine Asks.bind (Asks.orThrow (Asks.perform trivial)) fun found => ?_
    match found with
    | none | some none => trivial
    | some (some idx) => exact Asks.map _ trivial
  | mandatesFor agentId =>
    exact plain (Asks.map _ (bound_asks fun _ => Asks.orThrow (Asks.perform trivial))) fun _ _ _ same => nomatch same
  | revoke record | clear mandateId | unblockAgent agentId =>
    exact plain (Asks.map _ (bound_asks fun _ => wrote_asks (Asks.perform trivial))) fun _ _ _ same => nomatch same
  | blockAgent agentId block =>
    exact plain (Asks.map _ (bound_asks fun _ => bound_asks fun _ =>
      wrote_asks (Asks.perform trivial))) fun _ _ _ same => nomatch same

end Programs

/-! ### The invariant -/

/-- What a call knows of the indices still holds. -/
def LockPlace.Knows (indices : JsString → Option ℕ) : LockPlace → Prop
  | outside (some (mandateId, idx)) | held mandateId idx => indices mandateId = some idx
  | free mandateId => indices mandateId = none
  | next mandateId idx => indices mandateId = none ∧ Packed indices idx
  | _ => True

theorem LockPlace.Knows.leave {φ : LockPlace} (knows : φ.Knows indices) : φ.leave.Knows indices := by
  cases φ with
  | held mandateId idx => exact knows
  | _ => trivial

section Serialized
variable {ι : Type} {calls : ι → RevocationCall} {room : ℕ → Prop}
  {events : List (ι × Event TableOp.Answer)} {w w' : TableWorld ι} {phases : ι → LockPlace} {i : ι}

structure Serialized (calls : ι → RevocationCall) (room : ℕ → Prop)
    (events : List (ι × Event TableOp.Answer)) (w : TableWorld ι) (phases : ι → LockPlace) : Prop where
  packed : ∃ size, Packed w.tables.idxOf size
  room : ∀ m n, w.tables.idxOf m = some n → room n
  agents : w.tables.agentOf = latest (tableAssociations calls events)
  alone : ∀ j, (phases j).isOutside = false → w.holder = some j
  knows : ∀ j, (phases j).Knows w.tables.idxOf

theorem tableAssociations_append (events : List (ι × Event TableOp.Answer)) (i : ι)
    (op : TableOp) (ans : op.Answer) : tableAssociations calls (events ++ [(i, ⟨op, ans⟩)]) =
      tableAssociations calls events ++
        (if op.Associates ans then (calls i).association else none).toList := by
  rw [tableAssociations, List.filterMap_append]
  congr 1

/-- Whoever has the lock is the only one. -/
theorem Serialized.others_outside (kept : Serialized calls room events w phases)
    (inside : (phases i).isOutside = false) (other : j ≠ i) : (phases j).isOutside = true := by
  by_contra placed
  rw [Bool.not_eq_true] at placed
  have same := (kept.alone i inside).symm.trans (kept.alone j placed)
  exact other (Option.some.inj same).symm

theorem Serialized.agents_silent (kept : Serialized calls room events w phases) {op : TableOp}
    {ans : op.Answer} (silent : op.Associates ans = false) :
    w.tables.agentOf = latest (tableAssociations calls (events ++ [(i, ⟨op, ans⟩)])) := by
  rw [tableAssociations_append, silent, kept.agents]
  simp

variable [DecidableEq ι]

/-- A step that touches no index. -/
theorem Serialized.unmoved (kept : Serialized calls room events w phases) {op : TableOp} {ans : op.Answer}
    {φ : LockPlace} (indices : w'.tables.idxOf = w.tables.idxOf)
    (agents : w'.tables.agentOf = latest (tableAssociations calls (events ++ [(i, ⟨op, ans⟩)])))
    (holder : w'.holder = w.holder) (place : φ.isOutside = false → (phases i).isOutside = false)
    (knows : φ.Knows w.tables.idxOf) :
    Serialized calls room (events ++ [(i, ⟨op, ans⟩)]) w' (Function.update phases i φ) := by
  refine ⟨indices ▸ kept.packed, indices ▸ kept.room, agents, fun j placed => ?_, fun j => ?_⟩
  · rw [holder]
    rcases eq_or_ne j i with rfl | other
    · exact kept.alone j (place (by simpa using placed))
    · exact kept.alone j (by simpa [other] using placed)
  · rw [indices]
    rcases eq_or_ne j i with rfl | other
    · simpa using knows
    · simpa [other] using kept.knows j

/-- A step of a call that touches neither an index nor an agent. -/
theorem Serialized.silent (kept : Serialized calls room events w phases) {op : TableOp} {ans : op.Answer}
    {φ : LockPlace} (indices : w'.tables.idxOf = w.tables.idxOf)
    (agents : w'.tables.agentOf = w.tables.agentOf) (silent : op.Associates ans = false)
    (holder : w'.holder = w.holder) (place : φ.isOutside = false → (phases i).isOutside = false)
    (knows : φ.Knows w.tables.idxOf) :
    Serialized calls room (events ++ [(i, ⟨op, ans⟩)]) w' (Function.update phases i φ) :=
  kept.unmoved indices (agents.trans (kept.agents_silent silent)) holder place knows

/-- A write that takes an agent, if it lands. -/
theorem Serialized.associated (kept : Serialized calls room events w phases) {op : TableOp} {ans : op.Answer}
    {t' : RevocationTables} {landed : Bool} (written : w' = if landed then w.withTables t' else w)
    (indices : t'.idxOf = w.tables.idxOf)
    (agents : t'.agentOf = Function.update w.tables.agentOf m (some a))
    (associates : op.Associates ans = landed) (own : (calls i).association = some (m, a))
    {φ : LockPlace} (place : φ.isOutside = false → (phases i).isOutside = false)
    (knows : φ.Knows w.tables.idxOf) :
    Serialized calls room (events ++ [(i, ⟨op, ans⟩)]) w' (Function.update phases i φ) := by
  cases landed with
  | false =>
    cases written
    exact kept.silent rfl rfl associates rfl place knows
  | true =>
    cases written
    refine kept.unmoved indices ?_ rfl place knows
    have more : tableAssociations calls (events ++ [(i, ⟨op, ans⟩)]) =
        tableAssociations calls events ++ [(m, a)] := by
      rw [tableAssociations_append, associates, own]
      rfl
    rw [more, latest_append, ← kept.agents]
    exact agents

theorem Serialized.lock (kept : Serialized calls room events w phases) {ans : TableOp.lock.Answer}
    (answered : tableAnswers w i .lock ans w') :
    Serialized calls room (events ++ [(i, ⟨.lock, ans⟩)]) w'
      (Function.update phases i ((phases i).step .lock ans)) := by
  rcases answered with ⟨rfl, vacant, rfl⟩ | ⟨failed, rfl⟩
  · have outside : ∀ j, (phases j).isOutside = true := fun j => by
      by_contra placed
      rw [Bool.not_eq_true] at placed
      have held := kept.alone j placed
      rw [vacant] at held
      cases held
    refine ⟨kept.packed, kept.room, kept.agents_silent rfl, fun j placed => ?_, fun j => ?_⟩
    · rcases eq_or_ne j i with rfl | other
      · rfl
      · simp [other, outside j] at placed
    · rcases eq_or_ne j i with rfl | other
      · simp [LockPlace.step, LockPlace.Knows]
      · simpa [other] using kept.knows j
  · cases ans with
    | ok _ => exact absurd rfl failed
    | error e =>
      have stays : (phases i).step .lock (.error e) = phases i := by cases phases i <;> rfl
      rw [stays]
      exact kept.silent rfl rfl rfl rfl id (kept.knows i)

theorem Serialized.unlock (kept : Serialized calls room events w phases) {ans : TableOp.unlock.Answer}
    (inside : (phases i).isOutside = false) (answered : tableAnswers w i .unlock ans w') :
    Serialized calls room (events ++ [(i, ⟨.unlock, ans⟩)]) w'
      (Function.update phases i ((phases i).step .unlock ans)) := by
  cases answered
  have left : (phases i).step .unlock ans = (phases i).leave := by cases phases i <;> rfl
  have outside : (phases i).leave.isOutside = true := by cases phases i <;> rfl
  refine ⟨kept.packed, kept.room, kept.agents_silent rfl, fun j placed => ?_, fun j => ?_⟩
  · rcases eq_or_ne j i with rfl | other
    · rw [Function.update_self, left, outside] at placed
      cases placed
    · rw [Function.update_of_ne other, kept.others_outside inside other] at placed
      cases placed
  · rcases eq_or_ne j i with rfl | other
    · rw [Function.update_self, left]
      exact (kept.knows j).leave
    · rw [Function.update_of_ne other]
      exact kept.knows j

/-- The holder of the lock gives out the next index. -/
theorem Serialized.insert (kept : Serialized calls room events w phases) {ans : Written}
    (placed : phases i = .next m n) (roomy : room n)
    (own : (calls i).association = agentId.map fun agentId => (m, agentId))
    (answered : w.Writes (w.tables.write (.insertIndex m n agentId)) ans w') :
    Serialized calls room
      (events ++ [(i, ⟨.commit (some (.insertIndex m n agentId)), ans⟩)]) w'
      (Function.update phases i ((phases i).step (.commit (some (.insertIndex m n agentId))) ans)) := by
  have knows := kept.knows i
  rw [placed] at knows
  obtain ⟨free, packed⟩ := knows
  have inside : (phases i).isOutside = false := by rw [placed]; rfl
  obtain ⟨t', taken, indices, agents⟩ := RevocationTables.write_insertIndex packed free agentId
  rw [taken] at answered
  cases landed : ans.landed with
  | false =>
    have same : w' = w := by
      rw [TableWorld.Writes, landed] at answered
      exact answered
    subst same
    have silent : TableOp.Associates (.commit (some (.insertIndex m n agentId))) ans = false := by
      cases agentId with
      | none => rfl
      | some a => exact landed
    refine kept.silent rfl rfl silent rfl (fun _ => inside) ?_
    rw [placed]
    cases ans with
    | done => cases landed
    | failed thrown landed => trivial
  | true =>
    have same : w' = w.withTables t' := by
      rw [TableWorld.Writes, landed] at answered
      exact answered
    subst same
    refine ⟨⟨n + 1, ?_⟩, fun m' n' held => ?_, ?_, fun j stays => ?_, fun j => ?_⟩
    · rw [TableWorld.withTables, indices]
      exact packed.assign free
    · rw [TableWorld.withTables, indices] at held
      rcases eq_or_ne m' m with rfl | other
      · rw [Function.update_self, Option.some.injEq] at held
        exact held ▸ roomy
      · rw [Function.update_of_ne other] at held
        exact kept.room m' n' held
    · rw [TableWorld.withTables, agents, kept.agents, tableAssociations_append, own]
      cases agentId with
      | none => simp [TableOp.Associates]
      | some a =>
        have associates : TableOp.Associates (.commit (some (.insertIndex m n (some a)))) ans = true :=
          landed
        rw [associates, if_pos rfl, Option.map_some, Option.toList_some, latest_append]
        rfl
    · rcases eq_or_ne j i with rfl | other
      · exact kept.alone j inside
      · rw [Function.update_of_ne other, kept.others_outside inside other] at stays
        cases stays
    · rw [TableWorld.withTables, indices]
      rcases eq_or_ne j i with rfl | other
      · rw [Function.update_self, placed]
        cases ans with
        | done => exact Function.update_self ..
        | failed thrown landed => trivial
      · rw [Function.update_of_ne other]
        have elsewhere := kept.others_outside inside other
        have before := kept.knows j
        cases place : phases j with
        | outside learned =>
          rw [place] at before
          cases learned with
          | none => trivial
          | some known =>
            obtain ⟨m', n'⟩ := known
            have held : w.tables.idxOf m' = some n' := before
            change Function.update w.tables.idxOf m (some n) m' = some n'
            rw [Function.update_of_ne]
            · exact held
            · rintro rfl
              rw [free] at held
              cases held
        | _ =>
          rw [place] at elsewhere
          cases elsewhere

/-- A write to another table. -/
theorem Serialized.elsewhere (kept : Serialized calls room events w phases) {op : TableOp}
    {ans : op.Answer} {t' : RevocationTables} {written : Written}
    (answered : w.Writes (some t') written w') (indices : t'.idxOf = w.tables.idxOf)
    (agents : t'.agentOf = w.tables.agentOf) (silent : op.Associates ans = false)
    (stays : (phases i).step op ans = phases i) :
    Serialized calls room (events ++ [(i, ⟨op, ans⟩)]) w'
      (Function.update phases i ((phases i).step op ans)) := by
  rw [stays]
  rw [TableWorld.Writes] at answered
  split at answered
  · subst answered
    exact kept.silent indices agents silent rfl id (kept.knows i)
  · subst answered
    exact kept.silent rfl rfl silent rfl id (kept.knows i)

theorem fallibly_unmoved {s s' : σ} {result ans : Throwing α} (answered : Fallibly s s result ans s') :
    s' = s ∧ ∀ a, ans = .ok a → ans = result := by
  rcases answered with ⟨same, rfl⟩ | ⟨⟨thrown, rfl⟩, rfl | rfl⟩
  · exact ⟨rfl, fun _ _ => same⟩
  · exact ⟨rfl, nofun⟩
  · exact ⟨rfl, nofun⟩

theorem Serialized.selectIdx (kept : Serialized calls room events w phases)
    {ans : (TableOp.selectIdx m).Answer} (answered : tableAnswers w i (.selectIdx m) ans w') :
    Serialized calls room (events ++ [(i, ⟨.selectIdx m, ans⟩)]) w'
      (Function.update phases i ((phases i).step (.selectIdx m) ans)) := by
  obtain ⟨rfl, told⟩ := fallibly_unmoved answered
  have knows := kept.knows i
  cases placed : phases i with
  | inside =>
    have inside : (phases i).isOutside = false := by rw [placed]; rfl
    refine kept.silent rfl rfl rfl rfl (fun _ => inside) ?_
    cases ans with
    | error e => trivial
    | ok found =>
      have read : w'.tables.idxOf m = found.bind id := by
        cases told found rfl
        cases row : w'.tables.index.find m <;> simp [RevocationTables.idxOf, row]
      match found with
      | none | some none => exact read
      | some (some n) => exact read
  | _ =>
    refine kept.silent rfl rfl rfl rfl (fun stays => ?_) ?_
    · rw [placed]
      exact stays
    · rw [placed] at knows
      exact knows

theorem Serialized.selectMax (kept : Serialized calls room events w phases)
    {ans : TableOp.selectMax.Answer} (answered : tableAnswers w i .selectMax ans w') :
    Serialized calls room (events ++ [(i, ⟨.selectMax, ans⟩)]) w'
      (Function.update phases i ((phases i).step .selectMax ans)) := by
  obtain ⟨rfl, told⟩ := fallibly_unmoved answered
  have knows := kept.knows i
  cases placed : phases i with
  | free mandateId =>
    rw [placed] at knows
    have inside : (phases i).isOutside = false := by rw [placed]; rfl
    refine kept.silent rfl rfl rfl rfl (fun _ => inside) ?_
    cases ans with
    | error e => exact knows
    | ok highest =>
      cases told highest rfl
      obtain ⟨size, packed⟩ := kept.packed
      exact ⟨knows, (RevocationTables.succIdx_maxIdx packed).symm ▸ packed⟩
  | _ =>
    refine kept.silent rfl rfl rfl rfl (fun stays => ?_) ?_
    · rw [placed]
      exact stays
    · rw [placed] at knows
      exact knows

theorem Serialized.step (kept : Serialized calls room events w phases) {op : TableOp}
    {ans : op.Answer} (allowed : (phases i).Allows (calls i) room op)
    (answered : tableAnswers w i op ans w') :
    Serialized calls room (events ++ [(i, ⟨op, ans⟩)]) w'
      (Function.update phases i ((phases i).step op ans)) := by
  have knows := kept.knows i
  cases op with
  | lock => exact kept.lock answered
  | unlock => exact kept.unlock allowed answered
  | selectIdx mandateId => exact kept.selectIdx answered
  | selectMax => exact kept.selectMax answered
  | selectMandates agentId =>
    have stays : (phases i).step (.selectMandates agentId) ans = phases i := by cases phases i <;> rfl
    obtain ⟨rfl, -⟩ := fallibly_unmoved answered
    rw [stays]
    exact kept.silent rfl rfl rfl rfl id knows
  | commit write =>
    match write with
    | none =>
      have stays : (phases i).step (.commit none) ans = phases i := by cases phases i <;> rfl
      cases answered
      rw [stays]
      exact kept.silent rfl rfl rfl rfl id knows
    | some (.updateAgent m a) =>
      obtain ⟨⟨idx, placed⟩, own⟩ := allowed
      rw [placed] at knows ⊢
      rw [step_commit_held]
      obtain ⟨t', taken, indices, agents⟩ := RevocationTables.write_updateAgent knows a
      have written : w.Writes (w.tables.write (.updateAgent m a)) ans w' := answered
      rw [taken] at written
      exact kept.associated written indices agents rfl own (fun stays => placed ▸ stays) knows
    | some (.insertIndex m n agentId) =>
      exact kept.insert allowed.1 allowed.2.1 allowed.2.2 answered
  | linkIndex m a =>
    have stays : (phases i).step (.linkIndex m a) ans = phases i := by cases phases i <;> rfl
    rw [stays]
    exact kept.associated answered (RevocationTables.idxOf_linkIndex m a)
      (RevocationTables.agentOf_linkIndex m a) rfl allowed id knows
  | upsertBlock agentId block =>
    refine kept.elsewhere answered ?_ ?_ rfl (by cases phases i <;> rfl)
    · rw [RevocationTables.upsertBlock]
      split <;> rfl
    · rw [RevocationTables.upsertBlock]
      split <;> rfl
  | _ => exact kept.elsewhere answered rfl rfl rfl (by cases phases i <;> rfl)

end Serialized

/-! ### What an allocation that answers null has done -/

section Refused
open PostgresRevocationStore
variable {bindText : JsString → Throwing JsString} {mandateId : JsString} {agentId : Option JsString}
  {capacity : Number}

/-- The phase says whether something has been written. -/
def modifying : Monitor TableOp.Answer Bool where
  allowed _ _ := True
  step φ op _ φ' := φ' = (φ || op.Modifies)

/-- A mandate that holds an index is never refused. -/
theorem keepIndex_asks :
    (keepIndex bindText mandateId agentId idx).Asks (fun _ => True) (fun r => r ≠ .ok none) := by
  cases written : agentWrite bindText mandateId agentId with
  | error e =>
    rw [keepIndex, written]
    exact nofun
  | ok write =>
    cases safe : safeIndex idx "idx" with
    | error e =>
      rw [keepIndex, written, safe]
      exact nofun
    | ok index =>
      rw [keepIndex, written, safe]
      refine meets_wrote.mpr ⟨trivial, ?_⟩
      rintro (_ | _) _ - <;> exact nofun

theorem giveIndex_modifying :
    (giveIndex bindText mandateId agentId capacity).Meets modifying
      (fun φ r => r = .ok none → φ = false) false := by
  refine meets_orThrow_bind.mpr ⟨trivial, ?_⟩
  rintro (e | highest) _ rfl
  · rintro ⟨⟩
  simp only [meets_done, ThenOk]
  cases counted : nextIndex highest with
  | error e => rintro ⟨⟩
  | ok next =>
    change (if capacity ≤ ((next : ℤ) : Number) then _ else _ : TableProgram (Option ℕ)).Meets
      modifying _ false
    split
    · refine meets_wrote.mpr ⟨trivial, ?_⟩
      rintro (_ | _) _ rfl
      · exact fun _ => rfl
      · rintro ⟨⟩
    · cases bound : agentId.mapM bindText with
      | error e => rintro ⟨⟩
      | ok agent =>
        refine meets_wrote.mpr ⟨trivial, ?_⟩
        rintro (_ | _) _ - <;> rintro ⟨⟩

theorem allocate_modifying :
    (allocate bindText mandateId agentId capacity).Meets modifying
      (fun φ r => r = .ok none → φ = false) false := by
  refine meets_transaction trivial ?_ ?_
  · rintro _ rfl
    have body : ∀ p : TableProgram (Option ℕ),
        p.Meets modifying (fun φ r => r = .ok none → φ = false) false →
        p.Meets modifying (fun φ r => True ∧ ∀ ans φ', modifying.step φ .unlock ans φ' →
          r = .ok none → φ' = false) false := by
      intro p meets
      refine meets.mono fun φ r unwritten => ⟨trivial, ?_⟩
      rintro ans _ rfl refused
      rw [unwritten refused]
      rfl
    refine body _ ?_
    cases bound : bindText mandateId with
    | error e => exact nofun
    | ok mandate =>
      refine meets_orThrow_bind.mpr ⟨trivial, ?_⟩
      rintro (e | found) _ rfl
      · exact nofun
      match found with
      | none | some none => exact giveIndex_modifying
      | some (some idx) =>
        exact (keepIndex_asks.always fun _ _ => trivial).mono fun _ _ kept refused => absurd refused kept
  · rintro e _ rfl
    exact nofun

/-- The index of a mandate is read as it is. -/
def TellsIndex (m : JsString) (n : ℕ) : (op : TableOp) → op.Answer → Prop
  | .selectIdx m', ans => m' = m → ∀ found, ans = .ok found → found = some (some n)
  | _, _ => True

theorem allocate_told (intact : RevocationCall.Intact bindText mandateId) :
    (allocate bindText mandateId agentId capacity).Meets (.told (TellsIndex mandateId n))
      (fun _ r => r ≠ .ok none) () := by
  refine meets_transaction trivial ?_ fun _ _ _ => nofun
  rintro ⟨⟩ -
  have body : ∀ p : TableProgram (Option ℕ),
      p.Meets (.told (TellsIndex mandateId n)) (fun _ r => r ≠ .ok none) () →
      p.Meets (.told (TellsIndex mandateId n)) (fun φ r => True ∧ ∀ ans φ',
        (Monitor.told (TellsIndex mandateId n)).step φ .unlock ans φ' → r ≠ .ok none) () :=
    fun p meets => meets.mono fun _ _ kept => ⟨trivial, fun _ _ _ => kept⟩
  refine body _ ?_
  cases bound : bindText mandateId with
  | error e => exact nofun
  | ok mandate =>
    cases intact mandate bound
    refine meets_orThrow_bind.mpr ⟨trivial, ?_⟩
    rintro (e | found) ⟨⟩ told
    · exact nofun
    cases told rfl found rfl
    exact keepIndex_asks.always fun _ _ => trivial

end Refused
/-! ### Runs -/

/-- How many indices have been given out. -/
def RevocationTables.assigned (t : RevocationTables) : ℕ := RevocationTables.succIdx t.maxIdx

abbrev TablePool (ι : Type) := Pool TableOp.Answer Thrown RevocationAnswer (TableWorld ι) ι

section Runs
variable {ι : Type} {w w' : TableWorld ι}

theorem idxOf_written {t' : RevocationTables} {ans : Written} (held : w.tables.idxOf m = some n)
    (written : w.Writes (some t') ans w') (keeps : t'.idxOf m = some n) :
    w'.tables.idxOf m = some n := by
  rw [TableWorld.Writes] at written
  split at written
  · subst written
    exact keeps
  · subst written
    exact held

/-- No step takes an index away. -/
theorem idxOf_kept {op : TableOp} {ans : op.Answer} (answered : tableAnswers w i op ans w')
    (held : w.tables.idxOf m = some n) : w'.tables.idxOf m = some n := by
  cases op with
  | lock =>
    rcases answered with ⟨-, -, rfl⟩ | ⟨-, rfl⟩ <;> exact held
  | unlock => exact answered ▸ held
  | selectIdx _ | selectMax | selectMandates _ => exact (fallibly_unmoved answered).1 ▸ held
  | commit write =>
    cases write with
    | none => exact answered ▸ held
    | some write =>
      have written : w.Writes (w.tables.write write) ans w' := answered
      cases taken : w.tables.write write with
      | none =>
        rw [taken] at written
        exact written.2 ▸ held
      | some t' =>
        rw [taken] at written
        exact idxOf_written held written (RevocationTables.idxOf_write taken held)
  | linkIndex m' a =>
    refine idxOf_written held answered ?_
    rw [RevocationTables.idxOf_linkIndex]
    exact held
  | upsertBlock a block =>
    refine idxOf_written held answered ?_
    rw [RevocationTables.upsertBlock]
    split <;> exact held
  | _ => exact idxOf_written held answered held

variable [DecidableEq ι] {bindText : JsString → Throwing JsString} {calls : ι → RevocationCall}
  {events : List (ι × Event TableOp.Answer)} {pool mid : TablePool ι}

theorem idxOf_kept_run (run : Run tableAnswers mid events pool)
    (held : mid.world.tables.idxOf m = some n) : pool.world.tables.idxOf m = some n := by
  induction run with
  | start => exact held
  | step _ _ answered ih => exact idxOf_kept answered ih

/-- All calls, before the first step, over empty tables. -/
def begin (bindText : JsString → Throwing JsString) (calls : ι → RevocationCall) : TablePool ι :=
  ⟨⟨.empty, none⟩, fun i => (calls i).program bindText⟩

theorem serialized_of_run (room : ℕ → Prop) (carried : ∀ i, (calls i).Carried bindText)
    (roomy : ∀ i m l c, calls i = .allocate m l c → ∀ n : ℕ, ¬c ≤ (n : ℤ) → room n)
    (run : Run tableAnswers (begin bindText calls) events pool) :
    ∃ phases, Serialized calls room events pool.world phases ∧
      ∀ i, (pool.threads i).Meets (locking (calls i) room) (fun φ r => ∀ m l c n,
        calls i = .allocate m l c → r = .ok (.index (some n)) → φ = .outside (some (m, n)))
        (phases i) := by
  refine run.invariant (fun i => locking (calls i) room) _
    (Serialized calls room) (fun i => call_locking (carried i) (roomy i)) ?_ ?_
  · exact ⟨⟨0, Packed.empty⟩, nofun, rfl, nofun, fun i => trivial⟩
  · intro events w phases i op ans w' kept allowed answered
    exact ⟨_, rfl, kept.step allowed answered⟩

/-- An allocation that has answered an index has answered that of its mandate. -/
theorem given_of_run (carried : ∀ i, (calls i).Carried bindText)
    (run : Run tableAnswers (begin bindText calls) events pool) (call : calls i = .allocate m l c)
    (settled : pool.threads i = Async.done (.ok (.index (some n)))) :
    pool.world.tables.idxOf m = some n := by
  obtain ⟨phases, kept, meets⟩ := serialized_of_run (fun _ => True) carried
    (fun _ _ _ _ _ _ _ => trivial) run
  have learned := meets i
  rw [settled] at learned
  have knows := kept.knows i
  rw [learned m l c n call rfl] at knows
  exact knows

theorem packed_of_run (carried : ∀ i, (calls i).Carried bindText)
    (run : Run tableAnswers (begin bindText calls) events pool) :
    Packed pool.world.tables.idxOf pool.world.tables.assigned := by
  obtain ⟨phases, kept, -⟩ := serialized_of_run (fun _ => True) carried
    (fun _ _ _ _ _ _ _ => trivial) run
  obtain ⟨size, packed⟩ := kept.packed
  rw [RevocationTables.assigned, RevocationTables.succIdx_maxIdx packed]
  exact packed

theorem below_of_run {bound : Number} (carried : ∀ i, (calls i).Carried bindText)
    (within : ∀ i m l c, calls i = .allocate m l c → c ≤ bound)
    (run : Run tableAnswers (begin bindText calls) events pool)
    (held : pool.world.tables.idxOf m = some n) : ((n : ℤ) : Number) < bound := by
  obtain ⟨phases, kept, -⟩ := serialized_of_run (fun n : ℕ => ((n : ℤ) : Number) < bound) carried
    (fun i m l c call n room => natCast_lt_of_capacity room (within i m l c call)) run
  exact kept.room m n held

/-- Once as many indices are given out as there is capacity for, no more are. -/
theorem idxOf_full {bound : Number} (carried : ∀ i, (calls i).Carried bindText)
    (within : ∀ i m l c, calls i = .allocate m l c → c ≤ bound)
    (run : Run tableAnswers (begin bindText calls) events mid)
    (full : bound ≤ ((mid.world.tables.assigned : ℤ) : Number)) (later : Run tableAnswers mid more pool) :
    pool.world.tables.idxOf = mid.world.tables.idxOf := by
  funext m
  cases held : pool.world.tables.idxOf m with
  | none =>
    cases before : mid.world.tables.idxOf m with
    | none => rfl
    | some n =>
      rw [idxOf_kept_run later before] at held
      cases held
  | some n =>
    have below := below_of_run carried within (run.trans later) held
    have early : n < mid.world.tables.assigned := by
      by_contra beyond
      have above : ((mid.world.tables.assigned : ℤ) : Number) ≤ ((n : ℤ) : Number) :=
        Number.intCast_mono (by omega)
      exact Number.not_le_of_lt below (Number.le_trans full above)
    obtain ⟨m', before⟩ := (packed_of_run carried run).dense.mp early
    have same := (packed_of_run carried (run.trans later)).distinct held (idxOf_kept_run later before)
    rw [same, before]

/-- An allocation that answers null has written nothing. -/
theorem unmodified_of_refused (begun : mid.threads i = (RevocationCall.allocate m l c).program bindText)
    (run : Run tableAnswers mid events pool)
    (settled : pool.threads i = Async.done (.ok (.index none))) :
    ∀ e ∈ events, e.1 = i → e.2.1.Modifies = false := by
  have meets : ∀ j, (mid.threads j).Meets modifying
      (fun φ r => j = i → r = .ok (.index none) → φ = false) ((fun _ => false : ι → Bool) j) := by
    intro j
    rcases eq_or_ne j i with rfl | other
    · rw [begun]
      refine (meets_map _ _ _).mpr (allocate_modifying.mono fun φ r unwritten _ same => ?_)
      cases r with
      | error e => cases same
      | ok found =>
        cases same
        exact unwritten rfl
    · refine (Meets.simulate (meets_blind _ ()) (fun _ _ => True) trivial (fun _ _ _ _ _ => trivial)
        fun _ _ _ _ _ _ _ _ => ⟨(), rfl, trivial⟩).mono ?_
      exact fun _ _ _ same => absurd same other
  obtain ⟨phases, unwritten, rest⟩ := run.invariant (fun _ => modifying) _
    (fun events _ phases => ∀ e ∈ events, phases e.1 = false → e.2.1.Modifies = false) meets nofun
    fun events w phases j op ans w' unwritten _ _ => ⟨_, rfl, by
      intro e member quiet
      rcases List.mem_append.mp member with earlier | new
      · rcases eq_or_ne e.1 j with same | other
        · rw [same, Function.update_self, Bool.or_eq_false_iff] at quiet
          exact unwritten e earlier (same ▸ quiet.1)
        · rw [Function.update_of_ne other] at quiet
          exact unwritten e earlier quiet
      · cases List.mem_singleton.mp new
        rw [Function.update_self, Bool.or_eq_false_iff] at quiet
        exact quiet.2⟩
  have last := rest i
  rw [settled] at last
  exact fun e member own => unwritten e member (own ▸ last rfl rfl)

/-- An allocation that begins when its mandate has an index does not answer null. -/
theorem not_refused_of_held (intact : RevocationCall.Intact bindText m)
    (held : mid.world.tables.idxOf m = some n)
    (begun : mid.threads i = (RevocationCall.allocate m l c).program bindText)
    (run : Run tableAnswers mid events pool) :
    pool.threads i ≠ Async.done (.ok (.index none)) := by
  intro settled
  have meets : (mid.threads i).Meets (.told (TellsIndex m n)) (fun _ r => r ≠ .ok (.index none)) () := by
    rw [begun]
    refine (meets_map _ _ _).mpr ((allocate_told intact).mono fun _ r kept same => ?_)
    cases r with
    | error e => cases same
    | ok found =>
      cases same
      exact kept rfl
  refine run.told i (TellsIndex m n) (fun r => r ≠ .ok (.index none))
    (fun w => w.tables.idxOf m = some n) meets held (fun held answered => idxOf_kept answered held)
    (fun {w op ans w'} held answered => ?_) settled rfl
  cases op with
  | selectIdx m' =>
    rintro rfl found same
    cases (fallibly_unmoved answered).2 found same ▸ same
    obtain ⟨row, here, own⟩ := Option.bind_eq_some_iff.mp held
    rw [here, Option.map_some, own]
  | _ => trivial

/-- What holds of the tables in any state of a run. -/
structure TableBits (bindText : JsString → Throwing JsString) (calls : ι → RevocationCall)
    (events : List (ι × Event TableOp.Answer)) (pool : TablePool ι) : Prop where
  /-- No two mandates have one index, and the indices given out are those below their number. -/
  packed : Packed pool.world.tables.idxOf pool.world.tables.assigned
  /-- An index stays with its mandate. -/
  kept : ∀ {more later m n}, Run tableAnswers pool more later →
    pool.world.tables.idxOf m = some n → later.world.tables.idxOf m = some n
  /-- An allocation answers the index of its mandate. -/
  given : ∀ {i m l c n}, calls i = .allocate m l c →
    pool.threads i = Async.done (.ok (.index (some n))) → pool.world.tables.idxOf m = some n
  /-- Every index is below the capacity of the list. -/
  below : ∀ bound, (∀ i m l c, calls i = .allocate m l c → c ≤ bound) →
    ∀ m n, pool.world.tables.idxOf m = some n → ((n : ℤ) : Number) < bound
  /-- Once the indices are all given out, they stay as they are, and an allocation that then begins
  answers null unless its mandate has one. -/
  full : ∀ bound, (∀ i m l c, calls i = .allocate m l c → c ≤ bound) →
    bound ≤ ((pool.world.tables.assigned : ℤ) : Number) →
    ∀ {more later}, Run tableAnswers pool more later →
      later.world.tables.idxOf = pool.world.tables.idxOf ∧
      ∀ {i m l c answer}, calls i = .allocate m l c →
        pool.threads i = (RevocationCall.allocate m l c).program bindText →
        later.threads i = Async.done (.ok (.index answer)) → answer = pool.world.tables.idxOf m
  /-- An allocation that answers null has written nothing. -/
  refused : ∀ {i m l c more later}, pool.threads i = (RevocationCall.allocate m l c).program bindText →
    Run tableAnswers pool more later → later.threads i = Async.done (.ok (.index none)) →
    ∀ e ∈ more, e.1 = i → e.2.1.Modifies = false
  /-- Every mandate is listed under the agent it was associated with last. -/
  listed : ∀ m a, m ∈ pool.world.tables.mandatesFor a ↔
    latest (tableAssociations calls events) m = some a

theorem tableBits (carried : ∀ i, (calls i).Carried bindText)
    (run : Run tableAnswers (begin bindText calls) events pool) :
    TableBits bindText calls events pool where
  packed := packed_of_run carried run
  kept := idxOf_kept_run
  given := given_of_run carried run
  below bound within m n := below_of_run carried within run
  full bound within reached more later later_run := by
    have same := idxOf_full carried within run reached later_run
    refine ⟨same, fun {i m l c answer} call begun settled => ?_⟩
    cases answer with
    | some n =>
      rw [← same]
      exact (given_of_run carried (run.trans later_run) call settled).symm
    | none =>
      cases held : pool.world.tables.idxOf m with
      | none => rfl
      | some n =>
        have intact : RevocationCall.Intact bindText m := by
          have own := carried i
          rw [call] at own
          exact own.1
        exact absurd settled (not_refused_of_held intact held begun later_run)
  refused := unmodified_of_refused
  listed m a := by
    obtain ⟨phases, kept, -⟩ := serialized_of_run (fun _ => True) carried
      (fun _ _ _ _ _ _ _ => trivial) run
    rw [RevocationTables.mem_mandatesFor, kept.agents]

/-- One status bit per mandate, in memory over any sequence of operations, where the listing of an
agent is right as long as no mandate changes its agent; and in the database over any interleaving. -/
theorem one_bit_per_mandate (ops : List StoreOp) (carried : ∀ i, (calls i).Carried bindText)
    (run : Run tableAnswers (begin bindText calls) events pool) :
    MemoryRevocationStore.Bits ops ∧ TableBits bindText calls events pool :=
  ⟨MemoryRevocationStore.bits ops, tableBits carried run⟩

end Runs

/-! ### A mandate that changes its agent, and two processes that allocate -/

section Sample
open MemoryRevocationStore

/-- The old agent of a mandate still has it. -/
theorem relinked_mandate_listed_twice : ¬∀ (ops : List StoreOp) (m a : JsString),
    m ∈ (after ops).mandatesFor a ↔ latest (empty.associations ops) m = some a := fun exact =>
  have stale := (exact [.link "m-1" "a-1", .link "m-1" "a-2"] "m-1" "a-1").mp (by decide +kernel)
  absurd stale (by decide +kernel)

def sampleCalls : Fin 2 → RevocationCall
  | 0 => .allocate "m-1" (some "a-1") 8
  | 1 => .allocate "m-2" none 8

/-- A database in which nothing fails. -/
def sampleOracle (w : TableWorld (Fin 2)) (i : Fin 2) :
    (op : TableOp) → Option (op.Answer × TableWorld (Fin 2))
  | .lock => if w.holder = none then some (.ok (), { w with holder := some i }) else none
  | .unlock => some ((), { w with holder := none })
  | .selectIdx mandateId => some (.ok ((w.tables.index.find mandateId).map (·.idx)), w)
  | .selectMax => some (.ok w.tables.maxIdx, w)
  | .commit none => some (.done, w)
  | .commit (some write) => (w.tables.write write).map fun t' => (.done, w.withTables t')
  | _ => none

theorem sampleOracle_answers {w w' : TableWorld (Fin 2)}
    (told : sampleOracle w i op = some (ans, w')) : tableAnswers w i op ans w' := by
  cases op with
  | lock =>
    rw [sampleOracle] at told
    split at told
    · cases told
      exact .inl ⟨rfl, ‹_›, rfl⟩
    · cases told
  | commit write =>
    cases write with
    | none =>
      cases told
      rfl
    | some write =>
      obtain ⟨t', taken, same⟩ := Option.map_eq_some_iff.mp told
      cases same
      change TableWorld.Writes w (w.tables.write write) _ _
      rw [taken]
      rfl
  | selectIdx _ | selectMax =>
    cases told
    exact .inl ⟨rfl, rfl⟩
  | unlock =>
    cases told
    rfl
  | _ => cases told

/-- The second allocation asks for the lock while the first has it. -/
def samplePool : TablePool (Fin 2) :=
  Pool.attempt sampleOracle [0, 0, 1, 0, 1, 0, 0, 1, 1, 1, 1, 1] (begin .ok sampleCalls)

theorem two_processes_two_bits :
    (samplePool.world.tables.idxOf "m-1", samplePool.world.tables.idxOf "m-2") = (some 0, some 1) ∧
      ∃ events, Bits [.allocate "m-1" (some "a-1") 8] ∧ TableBits .ok sampleCalls events samplePool := by
  obtain ⟨events, run⟩ := @Pool.run_attempt _ _ Thrown RevocationAnswer _ _ _ tableAnswers _
    sampleOracle_answers [0, 0, 1, 0, 1, 0, 0, 1, 1, 1, 1, 1] (begin .ok sampleCalls)
  have intact : ∀ text, RevocationCall.Intact .ok text := fun _ _ same => (Except.ok.inj same).symm
  refine ⟨by decide +kernel, events, one_bit_per_mandate _ (fun i => ?_) run⟩
  match i with
  | 0 | 1 => exact ⟨intact _, fun _ _ => intact _⟩

end Sample
end Vaduno.Postgres
