import Vaduno.Enforce.LimiterSteps
import Vaduno.Machine

/-! What a spend limiter is for: one list of records under distinct ids, and windows summed over the
records of one budget. The in-memory limiter keeps the same records in two maps; it answers every
call as the list does, and so becomes the measure for the limiters over a file and a database. -/
namespace Vaduno.Enforce
open Ecma

inductive LimiterOp
  | reserve (req : ReserveRequest)
  | commit (reservationId : JsString)
  | release (reservationId : JsString)
  | pruneBefore (beforeMs : Number)
  | totalsSince (scope sinceIso currency : JsString)

inductive LimiterAnswer
  | reserved (result : ReserveResult)
  | settled
  | removed (count : ℕ)
  | totals (totalMinor count : Number)
  deriving DecidableEq

def SpendRecord.committed (r : SpendRecord) : SpendRecord := { r with state := .committed }

/-- The budget that a record belongs to. -/
def budgetOf (r : SpendRecord) : JsString := scopeKey r.scope r.currency

/-- Whether `totalsSince` passes over a record. An instant that does not parse counts nothing. -/
def before (since : Number) (r : SpendRecord) : Bool := !since.isFinite || decide (r.ms ≤ since)

def addTotals (since : Number) (sums : Number × Number) (r : SpendRecord) : Number × Number :=
  if before since r then sums else (sums.1 + r.amountMinor, sums.2 + 1)

def totalsOver (since : Number) (records : List SpendRecord) : LimiterAnswer :=
  let sums := records.foldl (addTotals since) (0, 0)
  .totals sums.1 sums.2

theorem addTotals_fst (since : Number) (sums : Number × Number) (r : SpendRecord) :
    (addTotals since sums r).1 = if before since r then sums.1 else sums.1 + r.amountMinor :=
  apply_ite Prod.fst _ _ _

theorem addTotals_snd (since : Number) (sums : Number × Number) (r : SpendRecord) :
    (addTotals since sums r).2 = if before since r then sums.2 else sums.2 + 1 :=
  apply_ite Prod.snd _ _ _

/-- A sum that is exact does not depend on the order of the records. -/
theorem totalsOver_perm {since : Number} {records more : List SpendRecord} (perm : records.Perm more)
    (amounts : ∀ r ∈ records, IsAmount r.amountMinor)
    (safe : Rolling.total (before since · = false) SpendRecord.amount records < 2 ^ 53) :
    totalsOver since records = totalsOver since more := by
  have total : (records.foldl (addTotals since) (0, 0)).1 = (more.foldl (addTotals since) (0, 0)).1 :=
    foldl_perm Prod.fst SpendRecord.amountMinor rfl (addTotals_fst since) amounts perm safe
  have count : (records.foldl (addTotals since) (0, 0)).2 = (more.foldl (addTotals since) (0, 0)).2 :=
    foldl_count_perm Prod.snd (addTotals_snd since) perm
  rw [totalsOver, totalsOver, total, count]

/-! ### The list -/

structure SpendBook where
  records : List SpendRecord
  distinct : (records.map SpendRecord.reservationId).Nodup

namespace SpendBook
variable (dateParse : JsString → Number) (b : SpendBook)

def empty : SpendBook := ⟨[], List.nodup_nil⟩

def find (reservationId : JsString) : Option SpendRecord :=
  b.records.find? (·.reservationId = reservationId)

def budget (key : JsString) : List SpendRecord := b.records.filter (budgetOf · = key)

def settle (reservationId : JsString) (r : SpendRecord) : SpendRecord :=
  if r.reservationId = reservationId then r.committed else r

theorem settle_id (reservationId : JsString) (r : SpendRecord) :
    (settle reservationId r).reservationId = r.reservationId := by
  unfold settle
  split_ifs
  · rfl
  · rfl

theorem find_none_iff {reservationId : JsString} :
    b.find reservationId = none ↔ ∀ r ∈ b.records, r.reservationId ≠ reservationId := by
  simp [find]

theorem find_some_iff {reservationId : JsString} {r : SpendRecord} :
    b.find reservationId = some r ↔ r ∈ b.records ∧ r.reservationId = reservationId := by
  constructor
  · intro found
    exact ⟨List.mem_of_find?_eq_some found, by simpa using List.find?_some found⟩
  · rintro ⟨member, rfl⟩
    cases found : b.find r.reservationId with
    | none => exact absurd rfl ((b.find_none_iff).mp found r member)
    | some other =>
      have same : other.reservationId = r.reservationId := by simpa using List.find?_some found
      exact congrArg some (List.inj_on_of_nodup_map b.distinct (List.mem_of_find?_eq_some found) member
        same)

def insert (r : SpendRecord) (fresh : b.find r.reservationId = none) : SpendBook where
  records := b.records ++ [r]
  distinct := by
    rw [List.map_append, List.map_singleton, ← List.concat_eq_append]
    refine List.Nodup.concat (fun member => ?_) b.distinct
    obtain ⟨q, held, same⟩ := List.mem_map.mp member
    exact (b.find_none_iff).mp fresh q held same

def commit (reservationId : JsString) : SpendBook where
  records := b.records.map (settle reservationId)
  distinct := by
    rw [List.map_map]
    exact (List.map_congr_left fun r _ => settle_id reservationId r) ▸ b.distinct

def keep (kept : SpendRecord → Bool) : SpendBook where
  records := b.records.filter kept
  distinct := b.distinct.sublist (List.filter_sublist.map _)

/-- A committed reservation stays. -/
def release (reservationId : JsString) : SpendBook :=
  b.keep fun r => !(r.reservationId = reservationId && r.state = .reserved)

def pruneBefore (beforeMs : Number) : SpendBook := b.keep fun r => decide (beforeMs ≤ r.ms)

def reserve (req : ReserveRequest) : Throwing LimiterAnswer × SpendBook :=
  match found : b.find req.reservationId with
  | some r => (.ok (.reserved (.ok req.reservationId true (some r.state))), b)
  | none =>
    match firstViolatedWindow req.windows (b.budget (scopeKey req.scope req.currency))
        req.amountMinor req.nowMs req.merchantKey with
    | .error thrown => (.error thrown, b)
    | .ok (some violation) => (.ok (.reserved (.refused violation)), b)
    | .ok none => (.ok (.reserved (.ok req.reservationId false none)),
        b.insert (MemorySpendLimiter.record req) found)

def step : LimiterOp → Throwing LimiterAnswer × SpendBook
  | .reserve req => b.reserve req
  | .commit reservationId => (.ok .settled, b.commit reservationId)
  | .release reservationId => (.ok .settled, b.release reservationId)
  | .pruneBefore beforeMs =>
    (.ok (.removed (b.records.countP fun r => !decide (beforeMs ≤ r.ms))), b.pruneBefore beforeMs)
  | .totalsSince scope sinceIso currency =>
    (.ok (totalsOver (dateParse sinceIso) (b.budget (scopeKey scope currency))), b)

theorem find_commit (reservationId id : JsString) : (b.commit reservationId).find id =
    if id = reservationId then (b.find id).map SpendRecord.committed else b.find id := by
  have same : ((fun r : SpendRecord => decide (r.reservationId = id)) ∘ settle reservationId) =
      fun r => decide (r.reservationId = id) := by
    funext r
    rw [Function.comp_apply, settle_id]
  rw [find, commit, List.find?_map, same, ← find]
  cases found : b.find id with
  | none => simp
  | some r =>
    obtain ⟨-, rfl⟩ := (b.find_some_iff).mp found
    unfold settle
    split_ifs with chosen
    · simp [chosen]
    · simp [chosen]

theorem budget_commit (reservationId key : JsString) :
    (b.commit reservationId).budget key = (b.budget key).map (settle reservationId) := by
  have same : ((fun r : SpendRecord => decide (budgetOf r = key)) ∘ settle reservationId) =
      fun r => decide (budgetOf r = key) := by
    funext r
    unfold settle
    rw [Function.comp_apply]
    split_ifs
    · rfl
    · rfl
  rw [budget, commit, List.filter_map, same, budget]

theorem find_keep (kept : SpendRecord → Bool) (id : JsString) :
    (b.keep kept).find id = (b.find id).filter kept := by
  ext r
  rw [find_some_iff, Option.filter_eq_some_iff, find_some_iff, keep, List.mem_filter]
  tauto

variable {b} {req : ReserveRequest}

theorem reserve_known {r : SpendRecord} (found : b.find req.reservationId = some r) :
    b.reserve req =
      (.ok (.reserved (.ok req.reservationId true (some r.state))), b) := by
  unfold reserve
  split
  · rename_i known
    rw [found] at known
    cases known
    rfl
  · rename_i absent
    rw [found] at absent
    cases absent

/-- What a reservation under a new id comes to. -/
theorem reserve_new (absent : b.find req.reservationId = none) :
    (b.reserve req).1 = (firstViolatedWindow req.windows
        (b.budget (scopeKey req.scope req.currency)) req.amountMinor req.nowMs req.merchantKey).map
          (fun violation => .reserved (MemorySpendLimiter.answerOf req violation)) ∧
      (b.reserve req).2.records =
        if firstViolatedWindow req.windows (b.budget (scopeKey req.scope req.currency))
            req.amountMinor req.nowMs req.merchantKey matches .ok none
        then b.records ++ [MemorySpendLimiter.record req] else b.records := by
  unfold reserve
  split
  · rename_i known
    rw [absent] at known
    cases known
  · split
    · rename_i thrown
      rw [thrown]
      exact ⟨rfl, rfl⟩
    · rename_i refused
      rw [refused]
      exact ⟨rfl, rfl⟩
    · rename_i passed
      rw [passed]
      exact ⟨rfl, rfl⟩

end SpendBook

/-! ### The two maps -/

/-- The in-memory limiter together with the order its map of budgets is iterated in. -/
structure MapLimiter where
  limiter : MemorySpendLimiter
  scopes : List JsString
  distinct : scopes.Nodup
  covers : ∀ key, key ∈ scopes ↔ (limiter.byScope key).isSome = true

namespace MapLimiter

def empty : MapLimiter where
  limiter := .empty
  scopes := []
  distinct := List.nodup_nil
  covers key := by simp [MemorySpendLimiter.empty]

/-- The ids whose records lie before `beforeMs`, budget by budget. -/
def expired (m : MapLimiter) (beforeMs : Number) : List JsString :=
  m.scopes.flatMap fun key =>
    ((m.limiter.recordsAt key).filter fun r => !decide (beforeMs ≤ r.ms)).map (·.reservationId)

/-- What pruning leaves of one budget: nothing at all if no record is left. -/
def kept (beforeMs : Number) (records : List SpendRecord) : Option (List SpendRecord) :=
  let keep := records.filter fun r => decide (beforeMs ≤ r.ms)
  if keep = [] then none else some keep

def pruned (m : MapLimiter) (beforeMs : Number) : SpendMaps where
  byScope key := (m.limiter.byScope key).bind (kept beforeMs)
  byId id := if id ∈ m.expired beforeMs then none else m.limiter.byId id

theorem recordsAt_pruned (m : MapLimiter) (beforeMs : Number) (key : JsString) :
    (m.pruned beforeMs).recordsAt key =
      (m.limiter.recordsAt key).filter fun r => decide (beforeMs ≤ r.ms) := by
  change ((m.limiter.byScope key).bind (kept beforeMs)).getD [] =
    ((m.limiter.byScope key).getD []).filter _
  cases m.limiter.byScope key with
  | none => rfl
  | some records =>
    change (kept beforeMs records).getD [] = records.filter _
    unfold kept
    dsimp only
    split_ifs with nothing
    · exact nothing.symm
    · rfl

theorem recordsAt_of_not_mem (m : MapLimiter) {key : JsString} (other : key ∉ m.scopes) :
    m.limiter.recordsAt key = [] := by
  rw [m.covers, Bool.not_eq_true, Option.isSome_eq_false_iff, Option.isNone_iff_eq_none] at other
  rw [SpendMaps.recordsAt, other]
  rfl

theorem mem_expired (m : MapLimiter) (beforeMs : Number) {id : JsString} {r : SpendRecord}
    (held : m.limiter.byId id = some r) : id ∈ m.expired beforeMs ↔ ¬beforeMs ≤ r.ms := by
  obtain rfl := m.limiter.indexed.id_of_byId held
  have place := m.limiter.indexed.mem_iff.mpr held
  constructor
  · intro member
    obtain ⟨key, -, among⟩ := List.mem_flatMap.mp member
    obtain ⟨q, old, same⟩ := List.mem_map.mp among
    rw [List.mem_filter] at old
    have own := m.limiter.indexed.byId_of_mem old.1
    rw [same, held] at own
    cases own
    simpa using old.2
  · intro old
    refine List.mem_flatMap.mpr ⟨budgetOf r, ?_, List.mem_map.mpr ⟨r, ?_, rfl⟩⟩
    · by_contra other
      rw [SpendMaps.held, show scopeKey r.scope r.currency = budgetOf r from rfl,
        m.recordsAt_of_not_mem other] at place
      cases place
    · exact List.mem_filter.mpr ⟨place, by simpa using old⟩

theorem byId_pruned (m : MapLimiter) (beforeMs : Number) (id : JsString) :
    (m.pruned beforeMs).byId id =
      (m.limiter.byId id).filter fun r => decide (beforeMs ≤ r.ms) := by
  unfold pruned
  dsimp only
  cases held : m.limiter.byId id with
  | none => simp
  | some r =>
    rw [Option.filter_some]
    by_cases old : beforeMs ≤ r.ms
    · rw [if_neg fun member => (m.mem_expired beforeMs held).mp member old, if_pos (by simpa using old)]
    · rw [if_pos ((m.mem_expired beforeMs held).mpr old), if_neg (by simpa using old)]

theorem indexed_pruned (m : MapLimiter) (beforeMs : Number) : (m.pruned beforeMs).Indexed where
  id_of_byId {key r} found := by
    rw [byId_pruned, Option.filter_eq_some_iff] at found
    exact m.limiter.indexed.id_of_byId found.1
  mem_iff {r} := by
    rw [SpendMaps.held, recordsAt_pruned, List.mem_filter, byId_pruned, Option.filter_eq_some_iff]
    exact and_congr_left' m.limiter.indexed.mem_iff
  key_of_mem {key r} member := by
    rw [recordsAt_pruned, List.mem_filter] at member
    exact m.limiter.indexed.key_of_mem member.1
  nodup key := by
    rw [recordsAt_pruned]
    exact (m.limiter.indexed.nodup key).filter _

/-- The map of budgets after a call that wrote to one of them, at most. -/
def wrote (m : MapLimiter) (l : MemorySpendLimiter) (key : JsString)
    (others : ∀ other, other ≠ key → (l.byScope other).isSome = (m.limiter.byScope other).isSome)
    (stays : (m.limiter.byScope key).isSome = true → (l.byScope key).isSome = true) : MapLimiter where
  limiter := l
  scopes := if key ∈ m.scopes ∨ l.byScope key = none then m.scopes else m.scopes ++ [key]
  distinct := by
    split_ifs with known
    · exact m.distinct
    · rw [← List.concat_eq_append]
      exact List.Nodup.concat (fun member => known (.inl member)) m.distinct
  covers other := by
    rcases eq_or_ne other key with rfl | different
    · split_ifs with known
      · rcases known with member | absent
        · exact iff_of_true member (stays ((m.covers other).mp member))
        · refine iff_of_false (fun member => ?_) (by simp [absent])
          have present := stays ((m.covers other).mp member)
          rw [absent] at present
          cases present
      · refine iff_of_true (by simp) ?_
        exact Option.isSome_iff_ne_none.mpr fun absent => known (.inr absent)
    · rw [others other different, ← m.covers]
      split_ifs
      · rfl
      · simp [different]

theorem reserve_scopes (m : MapLimiter) (req : ReserveRequest) (key : JsString) :
    (key ≠ scopeKey req.scope req.currency →
      ((m.limiter.reserve req).2.byScope key).isSome = (m.limiter.byScope key).isSome) ∧
    ((m.limiter.byScope key).isSome = true → ((m.limiter.reserve req).2.byScope key).isSome = true) := by
  rcases m.limiter.reserve_cases req with ⟨unchanged, -⟩ | ⟨-, -, -, inserted⟩
  · rw [unchanged]
    exact ⟨fun _ => rfl, id⟩
  · rw [congrArg SpendMaps.byScope inserted]
    unfold SpendMaps.insert
    dsimp only
    rw [Function.update_apply]
    split_ifs with same
    · exact ⟨fun other => absurd same other, fun _ => rfl⟩
    · exact ⟨fun _ => rfl, id⟩

def reserve (m : MapLimiter) (req : ReserveRequest) : Throwing ReserveResult × MapLimiter :=
  ((m.limiter.reserve req).1, m.wrote (m.limiter.reserve req).2 (scopeKey req.scope req.currency)
    (fun other => (m.reserve_scopes req other).1) (m.reserve_scopes req _).2)

def commit (m : MapLimiter) (reservationId : JsString) : MapLimiter where
  limiter := m.limiter.commit reservationId
  scopes := m.scopes
  distinct := m.distinct
  covers key := by
    rw [m.covers]
    rcases m.limiter.commit_cases reservationId with ⟨-, unchanged⟩ | ⟨r, -, settled⟩
    · rw [unchanged]
    · rw [congrArg SpendMaps.byScope settled, SpendMaps.settle]
      simp

theorem isSome_remove (l : SpendMaps) (r : SpendRecord) (key : JsString) :
    ((l.remove r).byScope key).isSome = (l.byScope key).isSome := by
  unfold SpendMaps.remove
  cases held : l.byScope (scopeKey r.scope r.currency) with
  | none => rfl
  | some records =>
    dsimp only
    rw [Function.update_apply]
    split_ifs with same
    · rw [same, held]
      rfl
    · rfl

def release (m : MapLimiter) (reservationId : JsString) : MapLimiter where
  limiter := m.limiter.release reservationId
  scopes := m.scopes
  distinct := m.distinct
  covers key := by
    rw [m.covers]
    rcases m.limiter.release_cases reservationId with ⟨-, unchanged⟩ | ⟨r, -, -, removed⟩
    · rw [unchanged]
    · rw [congrArg SpendMaps.byScope removed, isSome_remove]

def pruneBefore (m : MapLimiter) (beforeMs : Number) : ℕ × MapLimiter where
  fst := (m.expired beforeMs).length
  snd := {
    limiter := ⟨m.pruned beforeMs, m.indexed_pruned beforeMs⟩
    scopes := m.scopes.filter fun key => ((m.pruned beforeMs).byScope key).isSome
    distinct := m.distinct.filter _
    covers key := by
      rw [List.mem_filter, m.covers, and_iff_right_iff_imp]
      intro present
      change ((m.limiter.byScope key).bind (kept beforeMs)).isSome = true at present
      cases held : m.limiter.byScope key with
      | none =>
        rw [held] at present
        cases present
      | some records => rfl }

def step (dateParse : JsString → Number) (m : MapLimiter) :
    LimiterOp → Throwing LimiterAnswer × MapLimiter
  | .reserve req => ((m.reserve req).1.map .reserved, (m.reserve req).2)
  | .commit reservationId => (.ok .settled, m.commit reservationId)
  | .release reservationId => (.ok .settled, m.release reservationId)
  | .pruneBefore beforeMs =>
    (.ok (.removed (m.pruneBefore beforeMs).1), (m.pruneBefore beforeMs).2)
  | .totalsSince scope sinceIso currency =>
    (.ok (totalsOver (dateParse sinceIso) (m.limiter.held scope currency)), m)

/-- The maps hold what the list holds, each budget in the list's order. -/
structure Mirrors (m : MapLimiter) (b : SpendBook) : Prop where
  byId : ∀ id, m.limiter.byId id = b.find id
  recordsAt : ∀ key, m.limiter.recordsAt key = b.budget key

theorem mirrors_empty : Mirrors empty SpendBook.empty := ⟨fun _ => rfl, fun _ => rfl⟩

/-! ### The maps answer as the list does -/

section Mirrors
variable {m : MapLimiter} {b : SpendBook}

theorem Mirrors.insert {b' : SpendBook} {l : MemorySpendLimiter} {r : SpendRecord}
    (mirrors : Mirrors m b) (written : l.toSpendMaps = m.limiter.insert r)
    (added : b'.records = b.records ++ [r]) :
    (∀ id, l.byId id = b'.find id) ∧ ∀ key, l.recordsAt key = b'.budget key := by
  constructor
  · intro id
    rw [congrArg SpendMaps.byId written]
    change Function.update m.limiter.byId r.reservationId (some r) id = _
    rcases eq_or_ne id r.reservationId with rfl | other
    · rw [Function.update_self, eq_comm, SpendBook.find_some_iff]
      exact ⟨by simp [added], rfl⟩
    · rw [Function.update_of_ne other, mirrors.byId, SpendBook.find, SpendBook.find, added,
        List.find?_append]
      have unlike : [r].find? (·.reservationId = id) = none := by simp [other.symm]
      rw [unlike, Option.or_none]
  · intro key
    rw [SpendMaps.recordsAt, congrArg SpendMaps.byScope written, ← SpendMaps.recordsAt,
      SpendMaps.recordsAt_insert, mirrors.recordsAt, SpendBook.budget, SpendBook.budget, added,
      List.filter_append]
    split_ifs with same
    · simp [budgetOf, same]
    · simp [budgetOf, Ne.symm same]

theorem Mirrors.same {m' : MapLimiter} {b' : SpendBook} (mirrors : Mirrors m b)
    (limiter : m'.limiter = m.limiter) (records : b'.records = b.records) : Mirrors m' b' where
  byId id := by rw [limiter, mirrors.byId, SpendBook.find, SpendBook.find, records]
  recordsAt key := by rw [limiter, mirrors.recordsAt, SpendBook.budget, SpendBook.budget, records]

/-- One reservation is answered alike and leaves the two alike. -/
theorem Mirrors.reserve (mirrors : Mirrors m b) (req : ReserveRequest) :
    (m.reserve req).1.map .reserved = (b.reserve req).1 ∧ Mirrors (m.reserve req).2 (b.reserve req).2 := by
  have same := mirrors.byId req.reservationId
  cases found : b.find req.reservationId with
  | some r =>
    rw [found] at same
    have known := MemorySpendLimiter.reserve_known same
    rw [SpendBook.reserve_known found]
    have answer := congrArg (fun out : Throwing ReserveResult × MemorySpendLimiter =>
      out.1.map LimiterAnswer.reserved) known
    exact ⟨answer, mirrors.same (congrArg Prod.snd known) rfl⟩
  | none =>
    rw [found] at same
    obtain ⟨answer, records⟩ := SpendBook.reserve_new found
    have held : m.limiter.held req.scope req.currency = b.budget (scopeKey req.scope req.currency) :=
      mirrors.recordsAt _
    refine ⟨?_, ?_⟩
    · rw [answer, MapLimiter.reserve, MemorySpendLimiter.reserve_new same, held]
      cases firstViolatedWindow req.windows _ req.amountMinor req.nowMs req.merchantKey with
      | error thrown => rfl
      | ok violation => rfl
    · rcases m.limiter.reserve_cases req with ⟨unchanged, other⟩ | ⟨-, passed, -, written⟩
      · have kept : (b.reserve req).2.records = b.records := by
          rw [records]
          split
          · rename_i passed
            rw [MemorySpendLimiter.reserve_new same, held, passed] at other
            exact absurd rfl other
          · rfl
        exact mirrors.same unchanged kept
      · rw [held] at passed
        rw [passed] at records
        obtain ⟨byId, recordsAt⟩ := mirrors.insert written records
        exact ⟨byId, recordsAt⟩

theorem Mirrors.commit (mirrors : Mirrors m b) (reservationId : JsString) :
    Mirrors (m.commit reservationId) (b.commit reservationId) where
  byId id := by
    change (m.limiter.commit reservationId).byId id = _
    rw [MemorySpendLimiter.byId_commit, mirrors.byId, SpendBook.find_commit]
    rfl
  recordsAt key := by
    change (m.limiter.commit reservationId).recordsAt key = _
    rw [SpendBook.budget_commit]
    rcases m.limiter.commit_cases reservationId with ⟨absent, unchanged⟩ | ⟨r, found, settled⟩
    · rw [unchanged, mirrors.recordsAt]
      rw [mirrors.byId] at absent
      refine (List.map_id' _).symm.trans (List.map_congr_left fun q member => ?_)
      exact (if_neg (b.find_none_iff.mp absent q (List.mem_of_mem_filter member))).symm
    · rw [SpendMaps.recordsAt, congrArg SpendMaps.byScope settled, ← SpendMaps.recordsAt,
        SpendMaps.recordsAt_settle, mirrors.recordsAt]
      rw [mirrors.byId, SpendBook.find_some_iff] at found
      refine List.map_congr_left fun q member => ?_
      have held := List.mem_of_mem_filter member
      unfold SpendBook.settle
      by_cases same : q.reservationId = reservationId
      · have equal := List.inj_on_of_nodup_map b.distinct held found.1 (same.trans found.2.symm)
        rw [if_pos same, if_pos equal, equal]
        rfl
      · rw [if_neg same, if_neg fun equal : q = r => same (equal ▸ found.2)]

theorem Mirrors.keep {l : MemorySpendLimiter} {kept : SpendRecord → Bool} (mirrors : Mirrors m b)
    (byId : ∀ id, l.byId id = (m.limiter.byId id).filter kept)
    (recordsAt : ∀ key, l.recordsAt key = (m.limiter.recordsAt key).filter kept) :
    (∀ id, l.byId id = (b.keep kept).find id) ∧ ∀ key, l.recordsAt key = (b.keep kept).budget key := by
  refine ⟨fun id => ?_, fun key => ?_⟩
  · rw [byId, mirrors.byId, SpendBook.find_keep]
  · rw [recordsAt, mirrors.recordsAt]
    exact List.filter_comm _ _ _

/-- What a release leaves: everything but a reservation of this id. -/
def spared (reservationId : JsString) (r : SpendRecord) : Bool :=
  !(r.reservationId = reservationId && r.state = .reserved)

theorem recordsAt_release (l : MemorySpendLimiter) (reservationId key : JsString) :
    (l.release reservationId).recordsAt key = (l.recordsAt key).filter (spared reservationId) := by
  rcases l.release_cases reservationId with ⟨kept, unchanged⟩ | ⟨r, found, reserved, removed⟩
  · rw [unchanged, eq_comm, List.filter_eq_self]
    intro q member
    have own := l.indexed.byId_of_mem member
    by_cases same : q.reservationId = reservationId
    · rw [same] at own
      simp [spared, kept q own]
    · simp [spared, same]
  · obtain rfl := l.indexed.id_of_byId found
    have chosen : ∀ q ∈ l.recordsAt key, (q != r) = spared r.reservationId q := by
      intro q member
      have own := l.indexed.byId_of_mem member
      by_cases same : q.reservationId = r.reservationId
      · rw [same, found] at own
        cases own
        simp [spared, reserved]
      · have other : q ≠ r := fun equal => same (equal ▸ rfl)
        simp [spared, same, other]
    rw [SpendMaps.recordsAt, congrArg SpendMaps.byScope removed, ← SpendMaps.recordsAt,
      SpendMaps.recordsAt_remove, ← List.filter_congr chosen, ← (l.indexed.nodup key).erase_eq_filter]
    split_ifs with same
    · rfl
    · refine (List.erase_of_not_mem fun member => ?_).symm
      exact same (l.indexed.key_of_mem member)

theorem Mirrors.release (mirrors : Mirrors m b) (reservationId : JsString) :
    Mirrors (m.release reservationId) (b.release reservationId) := by
  suffices kept : ∀ id, (m.limiter.release reservationId).byId id =
      (m.limiter.byId id).filter (spared reservationId) by
    obtain ⟨byId, recordsAt⟩ := mirrors.keep kept (recordsAt_release m.limiter reservationId)
    exact ⟨byId, recordsAt⟩
  intro id
  rw [MemorySpendLimiter.byId_release]
  cases found : m.limiter.byId id with
  | none => simp
  | some r =>
    obtain rfl := m.limiter.indexed.id_of_byId found
    rw [Option.filter_some, Option.filter_some]
    by_cases same : r.reservationId = reservationId
    · cases state : r.state with
      | reserved => simp [spared, same, state]
      | committed => simp [spared, state]
    · simp [spared, same]

theorem countP_disjoint {ι : Type} {p q : ι → Bool} (disjoint : ∀ i, p i = true → q i = false)
    (items : List ι) : items.countP p + items.countP q = items.countP fun i => p i || q i := by
  induction items with
  | nil => rfl
  | cons i rest ih =>
    simp only [List.countP_cons, ← ih]
    cases chosen : p i with
    | true =>
      simp [disjoint i chosen]
      omega
    | false =>
      simp
      omega

/-- Counting budget by budget counts every record of these budgets once. -/
theorem length_byBudget (old : SpendRecord → Bool) (records : List SpendRecord) {keys : List JsString}
    (distinct : keys.Nodup) :
    (keys.flatMap fun key =>
      ((records.filter (budgetOf · = key)).filter old).map (·.reservationId)).length =
        records.countP fun r => old r && decide (budgetOf r ∈ keys) := by
  induction keys with
  | nil => simp
  | cons key rest ih =>
    obtain ⟨fresh, distinct⟩ := List.nodup_cons.mp distinct
    rw [List.flatMap_cons, List.length_append, ih distinct, List.length_map, List.filter_filter,
      ← List.countP_eq_length_filter, countP_disjoint]
    · refine List.countP_congr fun r _ => ?_
      simp only [Bool.or_eq_true, Bool.and_eq_true, decide_eq_true_eq, List.mem_cons]
      tauto
    · intro r chosen
      simp only [Bool.and_eq_true, decide_eq_true_eq] at chosen
      simp [chosen.2, fresh]

theorem Mirrors.pruneBefore (mirrors : Mirrors m b) (beforeMs : Number) :
    (m.pruneBefore beforeMs).1 = b.records.countP (fun r => !decide (beforeMs ≤ r.ms)) ∧
      Mirrors (m.pruneBefore beforeMs).2 (b.pruneBefore beforeMs) := by
  refine ⟨?_, ?_⟩
  · have counted := length_byBudget (fun r => !decide (beforeMs ≤ r.ms)) b.records m.distinct
    simp only [MapLimiter.pruneBefore, expired, mirrors.recordsAt, SpendBook.budget]
    rw [counted]
    refine List.countP_congr fun r member => ?_
    have known : budgetOf r ∈ m.scopes := by
      by_contra other
      have nothing := m.recordsAt_of_not_mem other
      rw [mirrors.recordsAt, SpendBook.budget, List.filter_eq_nil_iff] at nothing
      exact nothing r member (by simp)
    simp [known]
  · have pruned := @Mirrors.keep m b ⟨m.pruned beforeMs, m.indexed_pruned beforeMs⟩ _ mirrors
      (m.byId_pruned beforeMs) (m.recordsAt_pruned beforeMs)
    exact ⟨pruned.1, pruned.2⟩

end Mirrors

/-- The maps answer one call exactly as the list does. -/
theorem step_mirrors (dateParse : JsString → Number) (m : MapLimiter) (b : SpendBook)
    (mirrors : Mirrors m b) (op : LimiterOp) :
    (m.step dateParse op).1 = (b.step dateParse op).1 ∧
      Mirrors (m.step dateParse op).2 (b.step dateParse op).2 := by
  cases op with
  | reserve req => exact mirrors.reserve req
  | commit reservationId => exact ⟨rfl, mirrors.commit reservationId⟩
  | release reservationId => exact ⟨rfl, mirrors.release reservationId⟩
  | pruneBefore beforeMs =>
    obtain ⟨counted, pruned⟩ := mirrors.pruneBefore beforeMs
    refine ⟨?_, pruned⟩
    rw [step, counted]
    rfl
  | totalsSince scope sinceIso currency =>
    refine ⟨?_, mirrors⟩
    rw [step, SpendMaps.held, mirrors.recordsAt]
    rfl

/-- So they do over whole runs. -/
theorem play_mirrors (dateParse : JsString → Number) (ops : List LimiterOp) :
    (Machine.play (step dateParse) empty ops).1 =
        (Machine.play (SpendBook.step dateParse) SpendBook.empty ops).1 ∧
      Mirrors (Machine.play (step dateParse) empty ops).2
        (Machine.play (SpendBook.step dateParse) SpendBook.empty ops).2 := by
  have permitted : Machine.Permitted (step dateParse) (fun _ _ => True) empty ops :=
    Machine.Permitted.always (fun _ _ => trivial) empty ops
  obtain ⟨answers, last⟩ := Machine.play_alike
    (fun m b op mirrors _ => step_mirrors dateParse m b mirrors op) mirrors_empty permitted
  exact ⟨List.forall₂_eq_eq_eq ▸ answers, last⟩

end MapLimiter
end Vaduno.Enforce
