import Vaduno.Enforce.SpendWindow

/-! The in-memory spend limiter: reservations indexed by id and by budget. Each operation is one
indivisible step, since the source awaits nothing between its reads and its writes. -/
namespace Vaduno.Enforce
open Ecma

structure ReserveRequest where
  reservationId : JsString
  scope : JsString
  currency : JsString
  amountMinor : Number
  nowMs : Number
  windows : List SpendWindow
  merchantKey : Option JsString

inductive ReserveResult
  /-- `state` is present on a replay only. -/
  | ok (reservationId : JsString) (replayed : Bool) (state : Option ReservationState)
  | refused (violation : Violation)
  deriving DecidableEq

/-- The budget of one scope and currency; the length prefix keeps two pairs apart. -/
def scopeKey (scope currency : JsString) : JsString :=
  natText scope.length ++ ":" ++ scope ++ ":" ++ currency

theorem scopeKey_injective (same : scopeKey scope currency = scopeKey scope' currency') :
    scope = scope' ∧ currency = currency' := by
  have colon : ∀ n, (58 : UInt16) ∉ natText n := fun n member =>
    absurd (natText_digit member).2 (by decide)
  have prefixed : natText scope.length ++ 58 :: (scope ++ 58 :: currency) =
      natText scope'.length ++ 58 :: (scope' ++ 58 :: currency') := by
    simpa [scopeKey, encode, encodeChar] using same
  obtain ⟨lengths, rest⟩ := separated (colon _) (colon _) prefixed
  obtain ⟨scopes, tails⟩ := List.append_inj rest (natText_injective lengths)
  exact ⟨scopes, (List.cons.inj tails).2⟩

/-- The two maps of the limiter, before anything is known about how they agree. -/
structure SpendMaps where
  byScope : JsString → Option (List SpendRecord)
  byId : JsString → Option SpendRecord

namespace SpendMaps

def recordsAt (l : SpendMaps) (key : JsString) : List SpendRecord :=
  (l.byScope key).getD []

/-- The records held for one budget. -/
def held (l : SpendMaps) (scope currency : JsString) : List SpendRecord :=
  l.recordsAt (scopeKey scope currency)

def insert (l : SpendMaps) (r : SpendRecord) : SpendMaps where
  byScope := Function.update l.byScope (scopeKey r.scope r.currency)
    (some (l.held r.scope r.currency ++ [r]))
  byId := Function.update l.byId r.reservationId (some r)

/-- The record is one object in both maps, so settling it shows in both. -/
def settle (l : SpendMaps) (r : SpendRecord) : SpendMaps where
  byScope key := (l.byScope key).map (List.map fun q =>
    if q = r then { r with state := .committed } else q)
  byId := Function.update l.byId r.reservationId (some { r with state := .committed })

def remove (l : SpendMaps) (r : SpendRecord) : SpendMaps where
  byScope := match l.byScope (scopeKey r.scope r.currency) with
    | none => l.byScope
    | some records => Function.update l.byScope (scopeKey r.scope r.currency) (records.erase r)
  byId := Function.update l.byId r.reservationId none

/-- Each map lists exactly what the other does, under the record's own id and budget. -/
structure Indexed (l : SpendMaps) : Prop where
  id_of_byId : ∀ {key r}, l.byId key = some r → r.reservationId = key
  mem_iff : ∀ {r}, r ∈ l.held r.scope r.currency ↔ l.byId r.reservationId = some r
  key_of_mem : ∀ {key r}, r ∈ l.recordsAt key → key = scopeKey r.scope r.currency
  nodup : ∀ key, (l.recordsAt key).Nodup

theorem recordsAt_insert (l : SpendMaps) (r : SpendRecord) (key : JsString) :
    (l.insert r).recordsAt key =
      if key = scopeKey r.scope r.currency then l.recordsAt key ++ [r] else l.recordsAt key := by
  simp only [insert, recordsAt, Function.update_apply, held]
  split_ifs with same <;> simp [same]

theorem recordsAt_settle (l : SpendMaps) (r : SpendRecord) (key : JsString) :
    (l.settle r).recordsAt key = (l.recordsAt key).map fun q =>
      if q = r then { r with state := .committed } else q := by
  cases found : l.byScope key <;> simp [settle, recordsAt, found]

theorem recordsAt_remove (l : SpendMaps) (r : SpendRecord) (key : JsString) :
    (l.remove r).recordsAt key =
      if key = scopeKey r.scope r.currency then (l.recordsAt key).erase r
      else l.recordsAt key := by
  unfold remove recordsAt
  split
  · split_ifs with same <;> simp_all
  · simp only [Function.update_apply]
    split_ifs with same <;> simp_all

theorem held_insert (l : SpendMaps) (r : SpendRecord) (scope currency : JsString) :
    (l.insert r).held scope currency =
      if scope = r.scope ∧ currency = r.currency then l.held scope currency ++ [r]
      else l.held scope currency := by
  rw [held, recordsAt_insert, held]
  refine if_congr ⟨scopeKey_injective, ?_⟩ rfl rfl
  rintro ⟨rfl, rfl⟩
  rfl

theorem held_settle (l : SpendMaps) (r : SpendRecord) (scope currency : JsString) :
    (l.settle r).held scope currency = (l.held scope currency).map fun q =>
      if q = r then { r with state := .committed } else q :=
  recordsAt_settle l r _

theorem held_remove (l : SpendMaps) (r : SpendRecord) (scope currency : JsString) :
    (l.remove r).held scope currency =
      if scope = r.scope ∧ currency = r.currency then (l.held scope currency).erase r
      else l.held scope currency := by
  rw [held, recordsAt_remove, held]
  refine if_congr ⟨scopeKey_injective, ?_⟩ rfl rfl
  rintro ⟨rfl, rfl⟩
  rfl

theorem mem_held_insert (l : SpendMaps) (r q : SpendRecord) :
    q ∈ (l.insert r).held q.scope q.currency ↔ q ∈ l.held q.scope q.currency ∨ q = r := by
  rw [held, recordsAt_insert, held]
  split_ifs with same
  · simp
  · refine ⟨.inl, fun either => either.resolve_right ?_⟩
    rintro rfl
    exact same rfl

theorem mem_held_settle (l : SpendMaps) (r q : SpendRecord) :
    q ∈ (l.settle r).held q.scope q.currency ↔
      (q ∈ l.held q.scope q.currency ∧ q ≠ r) ∨
        (r ∈ l.held r.scope r.currency ∧ q = { r with state := .committed }) := by
  rw [held, recordsAt_settle, List.mem_map]
  constructor
  · rintro ⟨p, member, rfl⟩
    split_ifs at member ⊢ with chosen
    · subst chosen
      exact .inr ⟨member, rfl⟩
    · exact .inl ⟨member, chosen⟩
  · rintro (⟨member, other⟩ | ⟨member, rfl⟩)
    · exact ⟨q, member, if_neg other⟩
    · exact ⟨r, member, if_pos rfl⟩

theorem mem_held_remove (l : SpendMaps) (r q : SpendRecord)
    (nodup : (l.held r.scope r.currency).Nodup) :
    q ∈ (l.remove r).held q.scope q.currency ↔ q ∈ l.held q.scope q.currency ∧ q ≠ r := by
  rw [held, recordsAt_remove, held]
  split_ifs with same
  · rw [same, and_comm]
    exact nodup.mem_erase_iff
  · refine ⟨fun member => ⟨member, ?_⟩, And.left⟩
    rintro rfl
    exact same rfl

theorem Indexed.byId_of_mem (indexed : Indexed l) (member : r ∈ l.recordsAt key) :
    l.byId r.reservationId = some r := by
  rw [indexed.key_of_mem member] at member
  exact indexed.mem_iff.mp member

theorem Indexed.insert (indexed : Indexed l) (fresh : l.byId r.reservationId = none) :
    Indexed (l.insert r) where
  id_of_byId {key q} found := by
    rcases eq_or_ne key r.reservationId with rfl | other
    · simp_all [SpendMaps.insert]
    · exact indexed.id_of_byId (by simpa [SpendMaps.insert, other] using found)
  mem_iff {q} := by
    rw [mem_held_insert, indexed.mem_iff]
    rcases eq_or_ne q.reservationId r.reservationId with same | other
    · simp [SpendMaps.insert, same, fresh, eq_comm]
    · simp only [SpendMaps.insert, Function.update_of_ne other, or_iff_left_iff_imp]
      rintro rfl
      exact absurd rfl other
  key_of_mem {key q} member := by
    rw [recordsAt_insert] at member
    split_ifs at member with same
    · rcases List.mem_append.mp member with old | new
      · exact indexed.key_of_mem old
      · rw [List.mem_singleton.mp new, same]
    · exact indexed.key_of_mem member
  nodup key := by
    rw [recordsAt_insert]
    split_ifs with same
    · rw [← List.concat_eq_append]
      refine List.Nodup.concat (fun member => ?_) (indexed.nodup key)
      rw [indexed.byId_of_mem member] at fresh
      cases fresh
    · exact indexed.nodup key

theorem Indexed.settle (indexed : Indexed l) (found : l.byId r.reservationId = some r) :
    Indexed (l.settle r) where
  id_of_byId {key q} found := by
    rcases eq_or_ne key r.reservationId with rfl | other
    · simp only [SpendMaps.settle, Function.update_self, Option.some.injEq] at found
      rw [← found]
    · exact indexed.id_of_byId (by simpa [SpendMaps.settle, other] using found)
  mem_iff {q} := by
    rw [mem_held_settle, indexed.mem_iff, indexed.mem_iff]
    rcases eq_or_ne q.reservationId r.reservationId with same | other
    · simp only [same, found, SpendMaps.settle, Function.update_self, Option.some.injEq]
      grind
    · simp only [SpendMaps.settle, Function.update_of_ne other]
      grind
  key_of_mem {key q} member := by
    rw [recordsAt_settle, List.mem_map] at member
    obtain ⟨p, old, rfl⟩ := member
    have := indexed.key_of_mem old
    split_ifs with chosen
    · rwa [chosen] at this
    · exact this
  nodup key := by
    rw [recordsAt_settle]
    refine (List.nodup_map_iff_inj_on (indexed.nodup key)).mpr ?_
    intro p pMember q qMember same
    have pFound := indexed.byId_of_mem pMember
    have qFound := indexed.byId_of_mem qMember
    grind

theorem Indexed.remove (indexed : Indexed l) (found : l.byId r.reservationId = some r) :
    Indexed (l.remove r) where
  id_of_byId {key q} found := by
    rcases eq_or_ne key r.reservationId with rfl | other
    · simp [SpendMaps.remove] at found
    · exact indexed.id_of_byId (by simpa [SpendMaps.remove, other] using found)
  mem_iff {q} := by
    rw [mem_held_remove _ _ _ (indexed.nodup _), indexed.mem_iff]
    rcases eq_or_ne q.reservationId r.reservationId with same | other
    · simp [SpendMaps.remove, same, found, eq_comm]
    · simp only [SpendMaps.remove, Function.update_of_ne other, ne_eq, and_iff_left_iff_imp]
      rintro _ rfl
      exact other rfl
  key_of_mem {key q} member := by
    rw [recordsAt_remove] at member
    split_ifs at member with same
    · exact indexed.key_of_mem (List.mem_of_mem_erase member)
    · exact indexed.key_of_mem member
  nodup key := by
    rw [recordsAt_remove]
    split_ifs with same
    · exact (indexed.nodup key).erase r
    · exact indexed.nodup key

end SpendMaps

/-- The single-process limiter: two maps that agree. -/
@[ext] structure MemorySpendLimiter extends SpendMaps where
  indexed : toSpendMaps.Indexed

namespace MemorySpendLimiter

def empty : MemorySpendLimiter where
  byScope _ := none
  byId _ := none
  indexed := {
    id_of_byId := nofun
    mem_iff := by simp [SpendMaps.held, SpendMaps.recordsAt]
    key_of_mem := by simp [SpendMaps.recordsAt]
    nodup := by simp [SpendMaps.recordsAt] }

def record (req : ReserveRequest) : SpendRecord where
  reservationId := req.reservationId
  scope := req.scope
  currency := req.currency
  amountMinor := req.amountMinor
  ms := req.nowMs
  merchantKey := req.merchantKey
  state := .reserved

theorem byId_own (l : MemorySpendLimiter) (found : l.byId reservationId = some r) :
    l.byId r.reservationId = some r := by
  rwa [l.indexed.id_of_byId found]

def reserve (l : MemorySpendLimiter) (req : ReserveRequest) :
    Throwing ReserveResult × MemorySpendLimiter :=
  match found : l.byId req.reservationId with
  | some existingClaim => (.ok (.ok req.reservationId true (some existingClaim.state)), l)
  | none =>
    let records := l.held req.scope req.currency
    match firstViolatedWindow req.windows records req.amountMinor req.nowMs req.merchantKey with
    | .error thrown => (.error thrown, l)
    | .ok (some violation) => (.ok (.refused violation), l)
    | .ok none =>
      (.ok (.ok req.reservationId false none), ⟨l.insert (record req), l.indexed.insert found⟩)

def commit (l : MemorySpendLimiter) (reservationId : JsString) : MemorySpendLimiter :=
  match found : l.byId reservationId with
  | none => l
  | some r => ⟨l.settle r, l.indexed.settle (l.byId_own found)⟩

/-- A committed reservation stays: releasing it would un-count real money. -/
def release (l : MemorySpendLimiter) (reservationId : JsString) : MemorySpendLimiter :=
  match found : l.byId reservationId with
  | none => l
  | some r =>
    if r.state = .committed then l
    else ⟨l.remove r, l.indexed.remove (l.byId_own found)⟩

/-- A reservation either leaves the limiter as it was or was unknown, passed every window and is
now held. -/
theorem reserve_cases (l : MemorySpendLimiter) (req : ReserveRequest) :
    (l.reserve req).2 = l ∧ (l.reserve req).1 ≠ .ok (.ok req.reservationId false none) ∨
      l.byId req.reservationId = none ∧
      firstViolatedWindow req.windows (l.held req.scope req.currency) req.amountMinor req.nowMs
        req.merchantKey = .ok none ∧
      (l.reserve req).1 = .ok (.ok req.reservationId false none) ∧
      (l.reserve req).2.toSpendMaps = l.insert (record req) := by
  unfold reserve
  split
  · exact .inl ⟨rfl, by simp⟩
  · rename_i fresh
    dsimp only
    split
    · exact .inl ⟨rfl, by simp⟩
    · exact .inl ⟨rfl, by simp⟩
    · rename_i passed
      exact .inr ⟨fresh, passed, rfl, rfl⟩

theorem commit_cases (l : MemorySpendLimiter) (reservationId : JsString) :
    l.byId reservationId = none ∧ l.commit reservationId = l ∨
      ∃ r, l.byId reservationId = some r ∧
        (l.commit reservationId).toSpendMaps = l.settle r := by
  unfold commit
  split
  · exact .inl ⟨‹_›, rfl⟩
  · exact .inr ⟨_, ‹_›, rfl⟩

theorem release_cases (l : MemorySpendLimiter) (reservationId : JsString) :
    (∀ r, l.byId reservationId = some r → r.state = .committed) ∧ l.release reservationId = l ∨
      ∃ r, l.byId reservationId = some r ∧ r.state = .reserved ∧
        (l.release reservationId).toSpendMaps = l.remove r := by
  unfold release
  split
  · rename_i absent
    exact .inl ⟨by simp [absent], rfl⟩
  · rename_i r found
    split
    · rename_i settled
      exact .inl ⟨by simp [found, settled], rfl⟩
    · rename_i pending
      refine .inr ⟨r, found, ?_, rfl⟩
      cases state : r.state
      · rfl
      · exact absurd state pending

/-- What a reservation with a new id answers. -/
def answerOf (req : ReserveRequest) : Option Violation → ReserveResult
  | some violation => .refused violation
  | none => .ok req.reservationId false none

theorem reserve_known {l : MemorySpendLimiter} {req : ReserveRequest}
    (found : l.byId req.reservationId = some r) :
    l.reserve req = (.ok (.ok req.reservationId true (some r.state)), l) := by
  unfold reserve
  split
  · rename_i known
    rw [found] at known
    cases known
    rfl
  · rename_i absent
    rw [found] at absent
    cases absent

theorem reserve_new {l : MemorySpendLimiter} {req : ReserveRequest}
    (absent : l.byId req.reservationId = none) :
    (l.reserve req).1 = (firstViolatedWindow req.windows (l.held req.scope req.currency)
      req.amountMinor req.nowMs req.merchantKey).map (answerOf req) := by
  unfold reserve
  split
  · rename_i known
    rw [absent] at known
    cases known
  · dsimp only
    split
    · rename_i thrown
      rw [thrown]
      rfl
    · rename_i refused
      rw [refused]
      rfl
    · rename_i passed
      rw [passed]
      rfl

end MemorySpendLimiter
end Vaduno.Enforce
