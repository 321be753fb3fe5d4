import Vaduno.Ecma.JsonFile
import Vaduno.Enforce.SpendBook

/-! The spend limiter over a file. Every call reads the whole file under the lock and writes it whole,
so that what one call leaves to the next is the text and nothing else: closing the file and opening it
again changes nothing. -/
namespace Vaduno.Enforce
open Ecma

def stateText : ReservationState → JsString
  | .reserved => "reserved"
  | .committed => "committed"

/-- A record as it is written. It has no merchant key where the caller had none. -/
def recordProps (r : SpendRecord) : Entries :=
  let money : Entries := [
    ("reservationId", .string r.reservationId),
    ("scope", .string r.scope),
    ("currency", .string r.currency),
    ("amountMinor", .number r.amountMinor),
    ("ms", .number r.ms)]
  let merchantKey : Entries := r.merchantKey.toList.map fun key => ("merchantKey", .string key)
  let state : Entries := [("state", .string (stateText r.state))]
  money ++ merchantKey ++ state

/-- An entry as the calls look at it; only the limiter writes the file, and it writes records. A time
that was no finite number is written as `null`, which comparisons take for zero. -/
def recordOf (v : JsonValue) : SpendRecord where
  reservationId := JsonValue.text (v.get "reservationId")
  scope := JsonValue.text (v.get "scope")
  currency := JsonValue.text (v.get "currency")
  amountMinor := JsonValue.toNumber (v.get "amountMinor")
  ms := JsonValue.toNumber (v.get "ms")
  merchantKey := JsonValue.optionalText (v.get "merchantKey")
  state := if JsonValue.text (v.get "state") = "committed" then .committed else .reserved

def reservations : Layout SpendRecord where
  name := "reservations"
  key := SpendRecord.reservationId
  value := recordProps

/-- What the file holds; `none` where there is none. -/
abbrev FileSpendLimiter := Option JsString

namespace FileSpendLimiter
variable (unreadable : Thrown) (dateParse : JsString → Number) (file : FileSpendLimiter)

def load : Throwing Entries := loadEntries unreadable reservations.name file

def save (data : Entries) : FileSpendLimiter := some (fileText [(reservations.name, data)])

def reserve (req : ReserveRequest) : Throwing LimiterAnswer × FileSpendLimiter :=
  match file.load unreadable with
  | .error thrown => (.error thrown, file)
  | .ok data =>
    match data.find req.reservationId with
    | some existing =>
      (.ok (.reserved (.ok req.reservationId true (some (recordOf existing).state))), file)
    | none =>
      let inScope := (data.values.map recordOf).filter
        (budgetOf · = scopeKey req.scope req.currency)
      match firstViolatedWindow req.windows inScope req.amountMinor req.nowMs req.merchantKey with
      | .error thrown => (.error thrown, file)
      | .ok (some violation) => (.ok (.reserved (.refused violation)), file)
      | .ok none => (.ok (.reserved (.ok req.reservationId false none)),
          save (defineProp data req.reservationId
            (.object (recordProps (MemorySpendLimiter.record req)))))

def commit (reservationId : JsString) : Throwing LimiterAnswer × FileSpendLimiter :=
  match file.load unreadable with
  | .error thrown => (.error thrown, file)
  | .ok data =>
    match data.find reservationId with
    | none => (.ok .settled, file)
    | some r =>
      if (recordOf r).state = .committed then (.ok .settled, file)
      else (.ok .settled,
        save (defineProp data reservationId (r.withProp "state" (.string "committed"))))

def release (reservationId : JsString) : Throwing LimiterAnswer × FileSpendLimiter :=
  match file.load unreadable with
  | .error thrown => (.error thrown, file)
  | .ok data =>
    match data.find reservationId with
    | none => (.ok .settled, file)
    | some r =>
      -- releasing committed spend would un-count real money
      if (recordOf r).state = .committed then (.ok .settled, file)
      else (.ok .settled, save (data.delete reservationId))

def pruneBefore (beforeMs : Number) : Throwing LimiterAnswer × FileSpendLimiter :=
  match file.load unreadable with
  | .error thrown => (.error thrown, file)
  | .ok data =>
    let old := data.inOrder.filter fun e => decide ((recordOf e.2).ms < beforeMs)
    (.ok (.removed old.length),
      if 0 < old.length then save (old.foldl (fun data e => data.delete e.1) data) else file)

def totalsSince (scope currency : JsString) (since : Number) : Throwing LimiterAnswer := do
  let data ← file.load unreadable
  return totalsOver since ((data.values.map recordOf).filter (budgetOf · = scopeKey scope currency))

def step : LimiterOp → Throwing LimiterAnswer × FileSpendLimiter
  | .reserve req => file.reserve unreadable req
  | .commit reservationId => file.commit unreadable reservationId
  | .release reservationId => file.release unreadable reservationId
  | .pruneBefore beforeMs => file.pruneBefore unreadable beforeMs
  | .totalsSince scope sinceIso currency =>
    (file.totalsSince unreadable scope currency (dateParse sinceIso), file)

end FileSpendLimiter

/-! ### Records in and out -/

theorem recordOf_props (r : SpendRecord) : recordOf (.object (recordProps r)) = r := by
  obtain ⟨reservationId, scope, currency, amountMinor, ms, merchantKey, state⟩ := r
  cases merchantKey with
  | none => cases state <;> rfl
  | some key => cases state <;> rfl

theorem withProp_committed (r : SpendRecord) :
    (JsonValue.object (recordProps r)).withProp "state" (.string "committed") =
      .object (recordProps r.committed) := by
  obtain ⟨reservationId, scope, currency, amountMinor, ms, merchantKey, state⟩ := r
  cases merchantKey with
  | none => rfl
  | some key => rfl

/-- The names in a record, whatever its values. -/
def recordNames (keyed : Bool) : List JsString :=
  [encode "reservationId", encode "scope", encode "currency", encode "amountMinor", encode "ms"] ++
    (if keyed then [encode "merchantKey"] else []) ++ [encode "state"]

/-- Numbers that the file carries. -/
structure Carried (r : SpendRecord) : Prop where
  amount : IsAmount r.amountMinor
  clock : r.ms.isFinite = true

theorem Carried.faithful {r : SpendRecord} (carried : Carried r) :
    (JsonValue.object (recordProps r)).Faithful := by
  obtain ⟨d, clock⟩ : ∃ d, r.ms = .fin d := by
    have finite := carried.clock
    cases ms : r.ms with
    | fin d => exact ⟨d, rfl⟩
    | _ =>
      rw [ms] at finite
      cases finite
  obtain ⟨n, nonneg, narrow, amount⟩ := carried.amount
  rw [Number.intCast_def (by rw [abs_of_nonneg nonneg]; omega)] at amount
  refine .object (faithful_props fun p member => ?_) ?_
  · rw [recordProps, amount, clock] at member
    rcases List.mem_append.mp member with member | member
    · rcases List.mem_append.mp member with member | member
      · simp only [List.mem_cons, List.not_mem_nil, or_false] at member
        rcases member with rfl | rfl | rfl | rfl | rfl
        · exact .string _
        · exact .string _
        · exact .string _
        · exact .number _
        · exact .number _
      · obtain ⟨key, -, rfl⟩ := List.mem_map.mp member
        exact .string key
    · cases List.mem_singleton.mp member
      exact .string _
  · have names : (recordProps r).map Prod.fst = recordNames r.merchantKey.isSome := by
      unfold recordProps
      cases r.merchantKey with
      | none => rfl
      | some key => rfl
    rw [names]
    cases r.merchantKey.isSome with
    | false => decide
    | true => decide

/-! ### The file against the list -/

/-- The file holds the records of the list, in some order. -/
structure FileStores (file : FileSpendLimiter) (b : SpendBook) : Prop where
  holds : reservations.Holds file b.records
  carried : ∀ r ∈ b.records, Carried r

theorem fileStores_none : FileStores none SpendBook.empty :=
  ⟨Layout.holds_none, by simp [SpendBook.empty]⟩

/-- A reservation that the file carries, and whose windows compare exact sums. -/
structure FileReserveFits (req : ReserveRequest) (held : List SpendRecord) : Prop where
  clock : firstViolatedWindow req.windows held req.amountMinor req.nowMs req.merchantKey = .ok none →
    req.nowMs.isFinite = true
  sums : (∀ w ∈ req.windows, WellFormed w) → ∀ w ∈ req.windows, isUndefined w.capMinor = false →
    Rolling.total (Counted w req.merchantKey (req.nowMs - checkedNumber w.windowMs)) SpendRecord.amount
      held < 2 ^ 53

/-- The calls for which the file is good, given the records held for a budget and whether an id is
known. -/
def FileFits (dateParse : JsString → Number) (known : JsString → Bool)
    (held : JsString → List SpendRecord) : LimiterOp → Prop
  | .reserve req => known req.reservationId = false →
    FileReserveFits req (held (scopeKey req.scope req.currency))
  | .pruneBefore beforeMs => beforeMs.isNaN = false
  | .totalsSince scope sinceIso currency =>
    Rolling.total (before (dateParse sinceIso) · = false) SpendRecord.amount
      (held (scopeKey scope currency)) < 2 ^ 53
  | .commit _ | .release _ => True

section Stores
variable {file : FileSpendLimiter} {b : SpendBook} (stores : FileStores file b) (unreadable : Thrown)
include stores

theorem FileStores.load : ∃ order : List SpendRecord, order.Perm b.records ∧
    file.load unreadable = .ok (order.map reservations.entry) :=
  stores.holds.load b.distinct (fun r member => (stores.carried r member).faithful) unreadable

theorem FileStores.amounts (key : JsString) : ∀ r ∈ b.budget key, IsAmount r.amountMinor :=
  fun r member => (stores.carried r (List.mem_of_mem_filter member)).amount

theorem FileStores.same {b' : SpendBook} (records : b'.records = b.records) : FileStores file b' where
  holds := records ▸ stores.holds
  carried := records ▸ stores.carried

omit stores in
/-- A file written from rows that are the list's, in some order. -/
theorem fileStores_save {order : List SpendRecord} (perm : order.Perm b.records)
    (carried : ∀ r ∈ b.records, Carried r) :
    FileStores (FileSpendLimiter.save (order.map reservations.entry)) b :=
  ⟨Layout.holds_fileText perm, carried⟩

omit stores in
/-- The records that a call finds for a budget. -/
theorem inScope_perm {order : List SpendRecord} (perm : order.Perm b.records) (key : JsString) :
    ((Entries.values (order.map reservations.entry)).map recordOf |>.filter (budgetOf · = key)).Perm
      (b.budget key) := by
  have read : (Entries.values (order.map reservations.entry)).map recordOf =
      ownOrder reservations.key order := by
    rw [Entries.values, Layout.inOrder_entry, List.map_map, List.map_map]
    exact (List.map_congr_left fun r _ => recordOf_props r).trans (List.map_id' _)
  rw [read]
  exact ((ownOrder_perm _ _).trans perm).filter _

omit stores in
theorem find_reservation {order : List SpendRecord} (perm : order.Perm b.records) (id : JsString) :
    Entries.find (order.map reservations.entry) id =
      (b.find id).map fun r => .object (recordProps r) :=
  reservations.find_entry perm b.distinct id

theorem FileStores.reserve (req : ReserveRequest)
    (fits : b.find req.reservationId = none →
      FileReserveFits req (b.budget (scopeKey req.scope req.currency))) :
    (file.reserve unreadable req).1 = (b.reserve req).1 ∧
      FileStores (file.reserve unreadable req).2 (b.reserve req).2 := by
  obtain ⟨order, perm, loaded⟩ := stores.load unreadable
  have found := find_reservation perm req.reservationId
  unfold FileSpendLimiter.reserve
  rw [loaded]
  dsimp only
  cases held : b.find req.reservationId with
  | some r =>
    rw [held, Option.map_some] at found
    rw [found, SpendBook.reserve_known held]
    dsimp only
    rw [recordOf_props]
    exact ⟨rfl, stores⟩
  | none =>
    rw [held, Option.map_none] at found
    obtain ⟨answer, records⟩ := SpendBook.reserve_new held
    have inScope := inScope_perm perm (scopeKey req.scope req.currency)
    have same : firstViolatedWindow req.windows (b.budget (scopeKey req.scope req.currency))
        req.amountMinor req.nowMs req.merchantKey = firstViolatedWindow req.windows _ req.amountMinor
          req.nowMs req.merchantKey :=
      firstViolatedWindow_perm inScope.symm (stores.amounts _) (fits held).sums
    rw [found]
    dsimp only
    rw [← same]
    cases decided : firstViolatedWindow req.windows (b.budget (scopeKey req.scope req.currency))
        req.amountMinor req.nowMs req.merchantKey with
    | error thrown =>
      rw [decided] at answer records
      exact ⟨answer.symm, stores.same records⟩
    | ok outcome =>
      rw [decided] at answer records
      cases outcome with
      | some violation => exact ⟨answer.symm, stores.same records⟩
      | none =>
        have fresh : ∀ r ∈ b.records, r.reservationId ≠ req.reservationId := b.find_none_iff.mp held
        have added : defineProp (order.map reservations.entry) req.reservationId
            (.object (recordProps (MemorySpendLimiter.record req))) =
              (order ++ [MemorySpendLimiter.record req]).map reservations.entry :=
          @Layout.define_fresh _ reservations _ _ perm (MemorySpendLimiter.record req) fresh
        rw [added]
        refine ⟨answer.symm, fileStores_save (records ▸ perm.append_right _) ?_⟩
        rw [records]
        intro r member
        rcases List.mem_append.mp member with old | new
        · exact stores.carried r old
        · rw [List.mem_singleton.mp new]
          exact ⟨(firstViolatedWindow_none (stores.amounts _) decided).1, (fits held).clock decided⟩

theorem FileStores.commit (reservationId : JsString) :
    (file.commit unreadable reservationId).1 = .ok .settled ∧
      FileStores (file.commit unreadable reservationId).2 (b.commit reservationId) := by
  obtain ⟨order, perm, loaded⟩ := stores.load unreadable
  have found := find_reservation perm reservationId
  unfold FileSpendLimiter.commit
  rw [loaded]
  dsimp only
  cases held : b.find reservationId with
  | none =>
    rw [held, Option.map_none] at found
    rw [found]
    refine ⟨rfl, stores.same ((List.map_congr_left fun r member => ?_).trans (List.map_id _))⟩
    exact if_neg (b.find_none_iff.mp held r member)
  | some r =>
    rw [held, Option.map_some] at found
    obtain ⟨member, rfl⟩ := b.find_some_iff.mp held
    rw [found]
    dsimp only
    rw [recordOf_props]
    by_cases state : r.state = .committed
    · rw [if_pos state]
      refine ⟨rfl, stores.same ((List.map_congr_left fun q other => ?_).trans (List.map_id _))⟩
      unfold SpendBook.settle
      split_ifs with same
      · obtain rfl := List.inj_on_of_nodup_map b.distinct other member same
        rw [SpendRecord.committed, ← state]
        rfl
      · rfl
    · have settled : defineProp (order.map reservations.entry) r.reservationId
          (.object (recordProps r.committed)) =
            (order.map (SpendBook.settle r.reservationId)).map reservations.entry :=
        @Layout.define_known _ reservations _ _ perm b.distinct r SpendRecord.committed member rfl
      rw [if_neg state, withProp_committed, settled]
      refine ⟨rfl, fileStores_save (perm.map _) fun q written => ?_⟩
      obtain ⟨old, other, rfl⟩ := List.mem_map.mp written
      obtain ⟨amount, clock⟩ := stores.carried old other
      unfold SpendBook.settle
      split_ifs
      · exact ⟨amount, clock⟩
      · exact ⟨amount, clock⟩

theorem FileStores.release (reservationId : JsString) :
    (file.release unreadable reservationId).1 = .ok .settled ∧
      FileStores (file.release unreadable reservationId).2 (b.release reservationId) := by
  obtain ⟨order, perm, loaded⟩ := stores.load unreadable
  have found := find_reservation perm reservationId
  unfold FileSpendLimiter.release
  rw [loaded]
  dsimp only
  cases held : b.find reservationId with
  | none =>
    rw [held, Option.map_none] at found
    rw [found]
    refine ⟨rfl, stores.same (List.filter_eq_self.mpr fun r member => ?_)⟩
    simp [b.find_none_iff.mp held r member]
  | some r =>
    rw [held, Option.map_some] at found
    obtain ⟨member, rfl⟩ := b.find_some_iff.mp held
    rw [found]
    dsimp only
    rw [recordOf_props]
    by_cases state : r.state = .committed
    · rw [if_pos state]
      refine ⟨rfl, stores.same (List.filter_eq_self.mpr fun q other => ?_)⟩
      by_cases same : q.reservationId = r.reservationId
      · obtain rfl := List.inj_on_of_nodup_map b.distinct other member same
        simp [state]
      · simp [same]
    · have reserved : r.state = .reserved := by
        cases known : r.state with
        | reserved => rfl
        | committed => exact absurd known state
      have kept : ∀ q ∈ b.records, decide (q.reservationId ≠ r.reservationId) =
          !(q.reservationId = r.reservationId && q.state = .reserved) := by
        intro q other
        by_cases same : q.reservationId = r.reservationId
        · obtain rfl := List.inj_on_of_nodup_map b.distinct other member same
          simp [reserved]
        · simp [same]
      rw [if_neg state, Layout.delete_entry]
      refine ⟨rfl, fileStores_save ?_ fun q left => stores.carried q (List.mem_of_mem_filter left)⟩
      change (order.filter _).Perm (b.records.filter _)
      rw [← List.filter_congr kept]
      exact perm.filter _

theorem FileStores.pruneBefore {beforeMs : Number} (number : beforeMs.isNaN = false) :
    (file.pruneBefore unreadable beforeMs).1 =
        .ok (.removed (b.records.countP fun r => !decide (beforeMs ≤ r.ms))) ∧
      FileStores (file.pruneBefore unreadable beforeMs).2 (b.pruneBefore beforeMs) := by
  obtain ⟨order, perm, loaded⟩ := stores.load unreadable
  have old : ∀ r ∈ b.records, decide (r.ms < beforeMs) = !decide (beforeMs ≤ r.ms) := by
    intro r member
    have clock := Number.isNaN_of_isFinite (stores.carried r member).clock
    rw [← decide_not, decide_eq_decide]
    exact ⟨Number.not_le_of_lt, Number.lt_of_not_le clock number⟩
  have sorted := (ownOrder_perm reservations.key order).trans perm
  have expired : (Entries.inOrder (order.map reservations.entry)).filter
      (fun e => decide ((recordOf e.2).ms < beforeMs)) =
        ((ownOrder reservations.key order).filter fun r => decide (r.ms < beforeMs)).map
          reservations.entry := by
    rw [Layout.inOrder_entry, List.filter_map]
    refine congrArg _ (List.filter_congr fun r _ => ?_)
    rw [Function.comp_apply]
    exact congrArg (fun r : SpendRecord => decide (r.ms < beforeMs)) (recordOf_props r)
  have counted : ((ownOrder reservations.key order).filter fun r => decide (r.ms < beforeMs)).length =
      b.records.countP fun r => !decide (beforeMs ≤ r.ms) := by
    rw [← List.countP_eq_length_filter, sorted.countP_eq]
    exact List.countP_congr fun r member => by rw [old r member]
  have left : (order.filter fun r => !decide (r.ms < beforeMs)) =
      order.filter fun r => decide (beforeMs ≤ r.ms) :=
    List.filter_congr fun r member => by rw [old r (perm.mem_iff.mp member), Bool.not_not]
  unfold FileSpendLimiter.pruneBefore
  rw [loaded]
  dsimp only
  rw [expired, List.length_map, counted]
  refine ⟨rfl, ?_⟩
  split_ifs with some
  · rw [reservations.delete_rows perm b.distinct, left]
    exact fileStores_save (perm.filter _) fun r left => stores.carried r (List.mem_of_mem_filter left)
  · refine stores.same (List.filter_eq_self.mpr fun r member => ?_)
    have none := List.countP_eq_zero.mp (Nat.eq_zero_of_not_pos some) r member
    simpa using none

theorem FileStores.totalsSince {scope currency : JsString} {since : Number}
    (safe : Rolling.total (before since · = false) SpendRecord.amount
      (b.budget (scopeKey scope currency)) < 2 ^ 53) :
    file.totalsSince unreadable scope currency since =
      .ok (totalsOver since (b.budget (scopeKey scope currency))) := by
  obtain ⟨order, perm, loaded⟩ := stores.load unreadable
  have inScope := inScope_perm perm (scopeKey scope currency)
  unfold FileSpendLimiter.totalsSince
  rw [loaded, totalsOver_perm inScope.symm (stores.amounts _) safe]
  rfl

/-- One call that fits is answered as the list answers it, and leaves the two alike. -/
theorem FileStores.step (dateParse : JsString → Number) (op : LimiterOp)
    (fits : FileFits dateParse (fun id => (b.find id).isSome) b.budget op) :
    (file.step unreadable dateParse op).1 = (b.step dateParse op).1 ∧
      FileStores (file.step unreadable dateParse op).2 (b.step dateParse op).2 := by
  cases op with
  | reserve req =>
    refine stores.reserve unreadable req fun new => fits ?_
    dsimp only
    rw [new]
    rfl
  | commit reservationId => exact stores.commit unreadable reservationId
  | release reservationId => exact stores.release unreadable reservationId
  | pruneBefore beforeMs => exact stores.pruneBefore unreadable fits
  | totalsSince scope sinceIso currency => exact ⟨stores.totalsSince unreadable fits, stores⟩

end Stores
end Vaduno.Enforce
