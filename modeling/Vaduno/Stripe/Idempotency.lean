import Vaduno.Keyed
import Vaduno.Stripe.Handler

/-! The store of decisions that a single process has: entries that expire, in the order in which they came, and no more
of them than a cap. -/
namespace Vaduno.Stripe
open Ecma

structure Remembered where
  authId : JsString
  record : DecisionRecord
  expiresMs : Number

structure MemoryDecisionStore where
  ttlMs : Number
  maxEntries : Number
  map : Keyed Remembered.authId

namespace MemoryDecisionStore

/-- Drops expired entries, but no more than `left`. -/
def sweep (t : Number) : ℕ → List Remembered → List Remembered
  | _, [] => []
  | 0, rows => rows
  | left + 1, r :: rest => if r.expiresMs ≤ t then sweep t left rest else r :: sweep t (left + 1) rest

/-- Drops the oldest entries while there are too many. -/
def evict (maxEntries : Number) : List Remembered → List Remembered
  | [] => []
  | r :: rest => if maxEntries < (((r :: rest).length : ℕ) : ℤ) then evict maxEntries rest else r :: rest

theorem sweep_sublist (t : Number) (left : ℕ) (rows : List Remembered) : (sweep t left rows).Sublist rows := by
  induction rows generalizing left with
  | nil =>
    unfold sweep
    exact .slnil
  | cons r rest ih =>
    cases left with
    | zero => exact .refl _
    | succ left =>
      unfold sweep
      split_ifs
      · exact (ih left).cons r
      · exact (ih (left + 1)).cons_cons r

theorem evict_suffix (maxEntries : Number) (rows : List Remembered) : evict maxEntries rows <:+ rows := by
  induction rows with
  | nil => exact List.suffix_rfl
  | cons r rest ih =>
    unfold evict
    split_ifs
    · exact ih.trans (List.suffix_cons r rest)
    · exact List.suffix_rfl

def get (store : MemoryDecisionStore) (nowMs : Number) (authId : JsString) :
    Option DecisionRecord × MemoryDecisionStore :=
  match store.map.find authId with
  | none => (none, store)
  | some hit =>
    if hit.expiresMs < nowMs then (none, { store with map := store.map.erase authId }) else (some hit.record, store)

/-- The entries once a batch of expired ones is dropped and one is added, which keeps its place if it is there
already. -/
def added (store : MemoryDecisionStore) (t : Number) (authId : JsString) (record : DecisionRecord) :
    Keyed Remembered.authId :=
  (store.map.restrict (sweep t 64 store.map.rows) (sweep_sublist t 64 _)).put ⟨authId, record, t + store.ttlMs⟩

def set (store : MemoryDecisionStore) (t : Number) (authId : JsString) (record : DecisionRecord) :
    MemoryDecisionStore :=
  let entries := store.added t authId record
  { store with map := entries.restrict (evict store.maxEntries entries.rows) (evict_suffix _ _).sublist }

/-- The store before anything is remembered. -/
def fresh (ttlMs maxEntries : Number) : MemoryDecisionStore := ⟨ttlMs, maxEntries, .empty⟩

end MemoryDecisionStore

/-- A call on the store, with the clock that it reads. -/
inductive StoreCall
  | get (nowMs : Number) (authId : JsString)
  | set (t : Number) (authId : JsString) (record : DecisionRecord)

namespace StoreCall

def apply (store : MemoryDecisionStore) : StoreCall → MemoryDecisionStore
  | get nowMs authId => (store.get nowMs authId).2
  | set t authId record => store.set t authId record

/-- What calls leave, of which the last one stands first. -/
def applied (store : MemoryDecisionStore) : List StoreCall → MemoryDecisionStore
  | [] => store
  | call :: earlier => apply (applied store earlier) call

/-- The last decision that was set for an authorization, and when. -/
def lastSet (authId : JsString) : List StoreCall → Option (Number × DecisionRecord)
  | [] => none
  | set t other record :: earlier => if other = authId then some (t, record) else lastSet authId earlier
  | get .. :: earlier => lastSet authId earlier

/-- A call that neither replaces a decision that expires at some time nor comes after it has expired. -/
def Spares (authId : JsString) (expiresMs : Number) : StoreCall → Prop
  | get nowMs other => other = authId → ¬expiresMs < nowMs
  | set t other _ => other ≠ authId ∧ ¬expiresMs ≤ t

def isSet : StoreCall → Bool
  | set .. => true
  | get .. => false

end StoreCall

section Recall
open MemoryDecisionStore StoreCall
variable {store : MemoryDecisionStore} {rows : List Remembered} {x : Remembered} {k maxEntries : ℕ}

/-! ### What is remembered is what was set last -/

theorem mem_set {t : Number} {authId : JsString} {record : DecisionRecord} {r : Remembered}
    (member : r ∈ (store.set t authId record).map.rows) :
    r = ⟨authId, record, t + store.ttlMs⟩ ∨ r.authId ≠ authId ∧ r ∈ store.map.rows := by
  have found : (store.added t authId record).find r.authId = some r :=
    Keyed.mem_rows.mp ((evict_suffix _ _).subset member)
  rw [added, Keyed.find_put] at found
  split_ifs at found with same
  · exact .inl (Option.some.inj found).symm
  · exact .inr ⟨Ne.symm same, Keyed.mem_rows.mpr (Keyed.find_of_restrict found)⟩

theorem rows_get {nowMs : Number} {authId : JsString} :
    (store.get nowMs authId).2.map.rows = store.map.rows ∨
      (∃ hit, store.map.find authId = some hit ∧ hit.expiresMs < nowMs) ∧
        (store.get nowMs authId).2.map.rows = store.map.rows.filter fun r => r.authId ≠ authId := by
  unfold MemoryDecisionStore.get
  cases found : store.map.find authId with
  | none => exact .inl rfl
  | some hit =>
    dsimp only
    split_ifs with expired
    · exact .inr ⟨⟨hit, rfl, expired⟩, rfl⟩
    · exact .inl rfl

/-- Every entry is the last decision that was set for its authorization. -/
def Recalls (ttlMs : Number) (calls : List StoreCall) (rows : List Remembered) : Prop :=
  ∀ r ∈ rows, ∃ t, lastSet r.authId calls = some (t, r.record) ∧ r.expiresMs = t + ttlMs

theorem ttlMs_applied {calls : List StoreCall} : (applied store calls).ttlMs = store.ttlMs ∧
    (applied store calls).maxEntries = store.maxEntries := by
  induction calls with
  | nil => exact ⟨rfl, rfl⟩
  | cons call earlier ih =>
    have kept : (apply (applied store earlier) call).ttlMs = (applied store earlier).ttlMs ∧
        (apply (applied store earlier) call).maxEntries = (applied store earlier).maxEntries := by
      cases call with
      | set t authId record => exact ⟨rfl, rfl⟩
      | get nowMs authId =>
        simp only [apply]
        unfold MemoryDecisionStore.get
        split
        · exact ⟨rfl, rfl⟩
        · split_ifs <;> exact ⟨rfl, rfl⟩
    exact ⟨kept.1.trans ih.1, kept.2.trans ih.2⟩

theorem recalls_applied {ttlMs maxEntries : Number} (calls : List StoreCall) :
    Recalls ttlMs calls (applied (fresh ttlMs maxEntries) calls).map.rows := by
  induction calls with
  | nil =>
    intro r member
    cases member
  | cons call earlier ih =>
    intro r member
    cases call with
    | get nowMs authId =>
      refine ih r ?_
      rcases @rows_get (applied (fresh ttlMs maxEntries) earlier) nowMs authId with same | ⟨-, dropped⟩
      · exact same ▸ member
      · exact List.mem_of_mem_filter (dropped ▸ member)
    | set t authId record =>
      rcases mem_set member with rfl | ⟨other, held⟩
      · refine ⟨t, if_pos rfl, ?_⟩
        rw [ttlMs_applied.1]
        rfl
      · obtain ⟨t', last, expires⟩ := ih r held
        exact ⟨t', (if_neg (Ne.symm other)).trans last, expires⟩

/-! ### No more than the cap -/

theorem length_evict (small : rows.length < 2 ^ 53) (cap : maxEntries < 2 ^ 53) :
    (evict ((maxEntries : ℕ) : ℤ) rows).length ≤ maxEntries := by
  induction rows with
  | nil => exact Nat.zero_le _
  | cons r rest ih =>
    unfold evict
    split_ifs with many
    · exact ih (by simp only [List.length_cons] at small; omega)
    · rw [Number.natCast_lt cap small] at many
      exact not_lt.mp many

theorem length_applied {ttlMs : Number} (cap : maxEntries + 1 < 2 ^ 53) (calls : List StoreCall) :
    (applied (fresh ttlMs ((maxEntries : ℕ) : ℤ)) calls).map.rows.length ≤ maxEntries := by
  induction calls with
  | nil => exact Nat.zero_le _
  | cons call earlier ih =>
    cases call with
    | get nowMs authId =>
      refine le_trans ?_ ih
      rcases @rows_get (applied (fresh ttlMs ((maxEntries : ℕ) : ℤ)) earlier) nowMs authId with same | ⟨-, dropped⟩
      · exact (congrArg List.length same).le
      · exact (congrArg List.length dropped).trans_le (List.length_filter_le _ _)
    | set t authId record =>
      have swept : (sweep t 64 (applied (fresh ttlMs ((maxEntries : ℕ) : ℤ)) earlier).map.rows).length ≤ maxEntries :=
        (sweep_sublist t 64 _).length_le.trans ih
      change (evict (applied (fresh ttlMs ((maxEntries : ℕ) : ℤ)) earlier).maxEntries _).length ≤ maxEntries
      rw [ttlMs_applied.2]
      refine length_evict (lt_of_le_of_lt ((Keyed.length_put _ _).trans ?_) cap) (by omega)
      exact Nat.add_le_add_right swept 1

/-! ### What is not expired goes only once the cap pushes it out -/

/-- An entry that no more than `k` younger ones come after. -/
def Holds (x : Remembered) (k : ℕ) (rows : List Remembered) : Prop :=
  ∃ older younger, rows = older ++ x :: younger ∧ younger.length ≤ k

theorem Holds.mono {k' : ℕ} (held : Holds x k rows) (more : k ≤ k') : Holds x k' rows := by
  obtain ⟨older, younger, split, few⟩ := held
  exact ⟨older, younger, split, few.trans more⟩

theorem Holds.cons (held : Holds x k rows) (r : Remembered) : Holds x k (r :: rows) := by
  obtain ⟨older, younger, rfl, few⟩ := held
  exact ⟨r :: older, younger, rfl, few⟩

theorem Holds.last (rows : List Remembered) : Holds x 0 (rows ++ [x]) := ⟨rows, [], rfl, le_rfl⟩

theorem Holds.mem (held : Holds x k rows) : x ∈ rows := by
  obtain ⟨older, younger, rfl, -⟩ := held
  simp

theorem Holds.sweep {t : Number} {left : ℕ} (held : Holds x k rows) (fresh : ¬x.expiresMs ≤ t) :
    Holds x k (sweep t left rows) := by
  obtain ⟨older, younger, rfl, few⟩ := held
  induction older generalizing left with
  | nil =>
    cases left with
    | zero => exact ⟨[], younger, rfl, few⟩
    | succ left =>
      refine ⟨[], MemoryDecisionStore.sweep t (left + 1) younger, ?_, (sweep_sublist t _ _).length_le.trans few⟩
      simp [MemoryDecisionStore.sweep, fresh]
  | cons r older ih =>
    cases left with
    | zero => exact ⟨r :: older, younger, rfl, few⟩
    | succ left =>
      simp only [List.cons_append, MemoryDecisionStore.sweep]
      split_ifs
      · exact ih
      · exact ih.cons r

theorem Holds.filter {p : Remembered → Bool} (held : Holds x k rows) (kept : p x = true) :
    Holds x k (rows.filter p) := by
  obtain ⟨older, younger, rfl, few⟩ := held
  refine ⟨older.filter p, younger.filter p, ?_, (List.length_filter_le p younger).trans few⟩
  simp [kept]

theorem Holds.map {f : Remembered → Remembered} (held : Holds x k rows) (kept : f x = x) : Holds x k (rows.map f) := by
  obtain ⟨older, younger, rfl, few⟩ := held
  refine ⟨older.map f, younger.map f, ?_, (List.length_map f).trans_le few⟩
  simp [kept]

theorem Holds.put {table : Keyed Remembered.authId} {r : Remembered} (held : Holds x k table.rows)
    (other : r.authId ≠ x.authId) : Holds x (k + 1) (table.put r).rows := by
  unfold Keyed.put
  split
  · obtain ⟨older, younger, split, few⟩ := held
    refine ⟨older, younger ++ [r], ?_, by simpa using few⟩
    simp [Keyed.insert, split]
  · refine Holds.mono ?_ (Nat.le_succ k)
    exact held.map (if_neg other.symm)

theorem Holds.evict (held : Holds x k rows) (room : k < maxEntries) (small : rows.length < 2 ^ 53)
    (cap : maxEntries < 2 ^ 53) : Holds x k (evict ((maxEntries : ℕ) : ℤ) rows) := by
  obtain ⟨older, younger, rfl, few⟩ := held
  induction older with
  | nil =>
    refine ⟨[], younger, if_neg fun many => ?_, few⟩
    have more := (Number.natCast_lt cap small).mp many
    simp only [List.nil_append, List.length_cons] at more
    omega
  | cons r older ih =>
    simp only [List.cons_append, MemoryDecisionStore.evict]
    split_ifs
    · exact ih (lt_of_le_of_lt (Nat.le_succ _) small)
    · exact ⟨r :: older, younger, rfl, few⟩

section Retention
variable {ttlMs t : Number} {authId : JsString} {record : DecisionRecord} {earlier later : List StoreCall}

theorem rows_set {max : Number} : (applied (fresh ttlMs max) (.set t authId record :: earlier)).map.rows =
    evict max ((applied (fresh ttlMs max) earlier).added t authId record).rows := by
  change evict (applied (fresh ttlMs max) earlier).maxEntries _ = _
  rw [ttlMs_applied.2]
  rfl

theorem length_added (cap : maxEntries + 1 < 2 ^ 53) (calls : List StoreCall) (r : Remembered) :
    (((applied (fresh ttlMs ((maxEntries : ℕ) : ℤ)) calls).added t r.authId r.record).rows).length < 2 ^ 53 := by
  refine lt_of_le_of_lt ((Keyed.length_put _ _).trans ?_) cap
  exact Nat.add_le_add_right ((sweep_sublist t 64 _).length_le.trans (length_applied cap calls)) 1

/-- A decision for an authorization that had none is the youngest entry. -/
theorem holds_set (cap : maxEntries + 1 < 2 ^ 53) (room : 0 < maxEntries)
    (free : (applied (fresh ttlMs ((maxEntries : ℕ) : ℤ)) earlier).map.find authId = none) :
    Holds ⟨authId, record, t + ttlMs⟩ 0
      (applied (fresh ttlMs ((maxEntries : ℕ) : ℤ)) (.set t authId record :: earlier)).map.rows := by
  have last : Holds ⟨authId, record, t + ttlMs⟩ 0
      ((applied (fresh ttlMs ((maxEntries : ℕ) : ℤ)) earlier).added t authId record).rows := by
    rw [MemoryDecisionStore.added, Keyed.rows_put _ _ (Keyed.find_restrict_of_none free), ttlMs_applied.1]
    exact .last _
  rw [rows_set]
  exact last.evict room (length_added cap earlier ⟨authId, record, 0⟩) (by omega)

theorem holds_apply {call : StoreCall} (cap : maxEntries + 1 < 2 ^ 53)
    (held : Holds x k (applied (fresh ttlMs ((maxEntries : ℕ) : ℤ)) earlier).map.rows)
    (spares : Spares x.authId x.expiresMs call) (room : k + (if isSet call then 1 else 0) < maxEntries) :
    Holds x (k + (if isSet call then 1 else 0))
      (applied (fresh ttlMs ((maxEntries : ℕ) : ℤ)) (call :: earlier)).map.rows := by
  cases call with
  | get nowMs other =>
    rcases @rows_get (applied (fresh ttlMs ((maxEntries : ℕ) : ℤ)) earlier) nowMs other
      with same | ⟨⟨hit, found, expired⟩, dropped⟩
    · exact same ▸ held
    · have differs : other ≠ x.authId := by
        intro same
        refine spares same ?_
        obtain rfl : x = hit := Option.some.inj ((Keyed.mem_rows.mp held.mem).symm.trans (same ▸ found))
        exact expired
      exact dropped ▸ held.filter (decide_eq_true differs.symm)
  | set t other record =>
    have added : Holds x (k + 1)
        ((applied (fresh ttlMs ((maxEntries : ℕ) : ℤ)) earlier).added t other record).rows :=
      Holds.put (held.sweep spares.2) spares.1
    rw [rows_set]
    exact added.evict room (length_added cap earlier ⟨other, record, 0⟩) (by omega)

theorem holds_applied (cap : maxEntries + 1 < 2 ^ 53)
    (held : Holds x k (applied (fresh ttlMs ((maxEntries : ℕ) : ℤ)) earlier).map.rows)
    (spares : ∀ call ∈ later, Spares x.authId x.expiresMs call) (room : k + later.countP isSet < maxEntries) :
    Holds x (k + later.countP isSet)
      (applied (fresh ttlMs ((maxEntries : ℕ) : ℤ)) (later ++ earlier)).map.rows := by
  induction later with
  | nil => exact held
  | cons call later ih =>
    rw [List.countP_cons, ← Nat.add_assoc] at room ⊢
    refine holds_apply cap (ih (fun c member => spares c (List.mem_cons_of_mem _ member)) ?_)
      (spares call List.mem_cons_self) room
    exact lt_of_le_of_lt (Nat.le_add_right _ _) room

end Retention

theorem get_eq_some {nowMs : Number} {authId : JsString} {record : DecisionRecord} :
    (store.get nowMs authId).1 = some record ↔
      ∃ hit, store.map.find authId = some hit ∧ hit.record = record ∧ ¬hit.expiresMs < nowMs := by
  unfold MemoryDecisionStore.get
  cases store.map.find authId with
  | none => simp
  | some hit =>
    dsimp only
    split_ifs with expired <;> simp [expired]

/-- Over any calls, a store of a cap of entries has no more than that; what it answers with is the decision that was
last set for the authorization, not yet expired; and a decision for an authorization that had none is answered with
until it expires, unless as many others as the cap are set after it. -/
theorem decisions_are_recalled {ttlMs : Number} {maxEntries : ℕ} (cap : maxEntries + 1 < 2 ^ 53)
    (calls : List StoreCall) (nowMs : Number) (authId : JsString) :
    (applied (fresh ttlMs ((maxEntries : ℕ) : ℤ)) calls).map.rows.length ≤ maxEntries ∧
    (∀ record, ((applied (fresh ttlMs ((maxEntries : ℕ) : ℤ)) calls).get nowMs authId).1 = some record →
      ∃ t, lastSet authId calls = some (t, record) ∧ ¬t + ttlMs < nowMs) ∧
    ∀ later t record earlier, calls = later ++ .set t authId record :: earlier →
      (applied (fresh ttlMs ((maxEntries : ℕ) : ℤ)) earlier).map.find authId = none →
      (∀ call ∈ later, Spares authId (t + ttlMs) call) → later.countP isSet < maxEntries → ¬t + ttlMs < nowMs →
      ((applied (fresh ttlMs ((maxEntries : ℕ) : ℤ)) calls).get nowMs authId).1 = some record := by
  refine ⟨length_applied cap calls, fun record answered => ?_, ?_⟩
  · obtain ⟨hit, found, rfl, fresh⟩ := get_eq_some.mp answered
    obtain ⟨member, rfl⟩ := Keyed.find_eq_some.mp found
    obtain ⟨t, last, expires⟩ := recalls_applied calls hit member
    exact ⟨t, last, expires ▸ fresh⟩
  · rintro later t record earlier rfl free spares room fresh
    have set := @holds_set maxEntries ttlMs t authId record earlier cap (by omega) free
    have held := holds_applied cap set spares (by omega)
    exact get_eq_some.mpr ⟨_, Keyed.mem_rows.mp held.mem, rfl, fresh⟩

end Recall

namespace Idempotency.Sample
open MemoryDecisionStore StoreCall

def first : JsString := "iauth_1"

def second : JsString := "iauth_2"

def answered : DecisionRecord := ⟨received, "2025-01-01T00:00:00.000Z"⟩

/-- The second's first decision expires as the first's comes in. -/
def calls : List StoreCall :=
  [.get 7 first, .set 6 second answered, .get 5 second, .set 4 first answered, .set 0 second answered]

theorem later_spares : ∀ call ∈ [.get 7 first, .set 6 second answered, .get 5 second],
    Spares first ((4 : Number) + 4) call := by
  simp only [List.mem_cons, List.not_mem_nil, or_false, forall_eq_or_imp, forall_eq, Spares]
  decide +kernel

theorem first_recalled :
    ((applied (fresh 4 (((2 : ℕ) : ℤ) : Number)) calls).get 8 first).1 = some answered :=
  (decisions_are_recalled (by decide) calls 8 first).2.2 _ 4 answered [.set 0 second answered] rfl (by decide +kernel)
    later_spares (by decide) (by decide +kernel)

end Idempotency.Sample
end Vaduno.Stripe
