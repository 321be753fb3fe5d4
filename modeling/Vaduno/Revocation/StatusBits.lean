import Vaduno.Machine
import Vaduno.Revocation.Store

/-! One status bit per mandate: which bits a store has given out, and which agent each mandate was
last associated with, over runs of any operations on the in-memory store. -/
namespace Vaduno.Revocation
open Ecma

/-! ### Numbers given out in order -/

section Packing
variable {κ α : Type} {index : κ → Option ℕ} {size : ℕ}

/-- The numbers below `size` are given out, each to one key. -/
structure Packed (index : κ → Option ℕ) (size : ℕ) : Prop where
  distinct : ∀ {k k' n}, index k = some n → index k' = some n → k = k'
  dense : ∀ {n}, n < size ↔ ∃ k, index k = some n

theorem Packed.empty : Packed (fun _ : κ => none) 0 where
  distinct := nofun
  dense := by simp

theorem Packed.size_unique {size' : ℕ} (packed : Packed index size) (packed' : Packed index size') :
    size = size' := by
  refine le_antisymm (Nat.le_of_not_lt fun beyond => ?_) (Nat.le_of_not_lt fun beyond => ?_)
  · exact absurd (packed'.dense.mpr (packed.dense.mp beyond)) (by omega)
  · exact absurd (packed.dense.mpr (packed'.dense.mp beyond)) (by omega)

variable [DecidableEq κ]

/-- The next number goes to a key that has none. -/
theorem Packed.assign (packed : Packed index size) (free : index k = none) :
    Packed (Function.update index k (some size)) (size + 1) := by
  have below : ∀ {k' n}, index k' = some n → n < size := fun held => packed.dense.mpr ⟨_, held⟩
  refine ⟨fun {a b n} first second => ?_, fun {n} => ⟨fun bound => ?_, ?_⟩⟩
  · rcases eq_or_ne a k with rfl | left <;> rcases eq_or_ne b a with rfl | right
    · rfl
    · simp only [Function.update_self, Option.some.injEq, ne_eq, right, not_false_eq_true,
        Function.update_of_ne] at first second
      have := below second
      omega
    · rfl
    · rw [Function.update_of_ne left] at first
      rcases eq_or_ne b k with rfl | other
      · rw [Function.update_self, Option.some.injEq] at second
        have := below first
        omega
      · rw [Function.update_of_ne other] at second
        exact packed.distinct first second
  · rcases Nat.lt_succ_iff_lt_or_eq.mp bound with before | rfl
    · obtain ⟨k', held⟩ := packed.dense.mp before
      refine ⟨k', ?_⟩
      rw [Function.update_of_ne]
      · exact held
      · rintro rfl
        rw [free] at held
        cases held
    · exact ⟨k, Function.update_self ..⟩
  · rintro ⟨k', held⟩
    rcases eq_or_ne k' k with rfl | other
    · rw [Function.update_self, Option.some.injEq] at held
      omega
    · rw [Function.update_of_ne other] at held
      have := below held
      omega

/-- What each key was associated with last, of pairs in the order they came. -/
def latest (associations : List (κ × α)) : κ → Option α :=
  associations.foldl (fun known p => Function.update known p.1 (some p.2)) fun _ => none

theorem latest_append (earlier : List (κ × α)) (k : κ) (a : α) :
    latest (earlier ++ [(k, a)]) = Function.update (latest earlier) k (some a) := by
  rw [latest, List.foldl_append]
  rfl

end Packing

theorem isNaN_intCast (n : ℤ) : (n : Number).isNaN = false := by
  change (Number.round n).isNaN = false
  unfold Number.round
  split
  · rfl
  · split <;> rfl

theorem natCast_lt_of_capacity {n : ℕ} {capacity bound : Number} (room : ¬capacity ≤ (n : ℤ))
    (within : capacity ≤ bound) : ((n : ℤ) : Number) < bound := by
  have number : capacity.isNaN = false := by
    cases capacity with
    | nan => cases within
    | _ => rfl
  exact Number.lt_of_lt_of_le (Number.lt_of_not_le (isNaN_intCast n) number room) within

/-! ### The in-memory store -/

inductive StoreOp
  | allocate (mandateId : JsString) (agentId : Option JsString) (capacity : Number)
  | link (mandateId agentId : JsString)
  | revoke (record : RevocationRecord)
  | clear (mandateId : JsString)
  | blockAgent (agentId : JsString) (block : AgentBlock)
  | unblockAgent (agentId : JsString)

namespace MemoryRevocationStore

/-- Every method runs to completion; an allocation answers its index. -/
def perform (s : MemoryRevocationStore) : StoreOp → Option ℕ × MemoryRevocationStore
  | .allocate mandateId agentId capacity => s.allocate mandateId agentId capacity
  | .link mandateId agentId => (none, s.linkSync mandateId agentId)
  | .revoke record => (none, s.revoke record)
  | .clear mandateId => (none, s.clear mandateId)
  | .blockAgent agentId block => (none, s.blockAgent agentId block)
  | .unblockAgent agentId => (none, s.unblockAgent agentId)

def mandatesFor (s : MemoryRevocationStore) (agentId : JsString) : List JsString := s.byAgent agentId

end MemoryRevocationStore

/-- The mandate that an answered operation associates with an agent. An allocation that finds the list
full associates nothing. -/
def StoreOp.association : StoreOp → Option ℕ → Option (JsString × JsString)
  | allocate mandateId (some agentId) _, some _ => some (mandateId, agentId)
  | link mandateId agentId, _ => some (mandateId, agentId)
  | _, _ => none

namespace MemoryRevocationStore

/-- The associations of a run, in order. -/
def associations (s : MemoryRevocationStore) : List StoreOp → List (JsString × JsString)
  | [] => []
  | op :: ops => (op.association (s.perform op).1).toList ++ (s.perform op).2.associations ops

/-- The operation associates no mandate with another agent than it has. An allocation associates its
mandate where that has an index or can be given one. -/
def KeepsAgent (s : MemoryRevocationStore) : StoreOp → Prop
  | .allocate mandateId (some agentId) capacity =>
    s.indices mandateId ≠ none ∨ ¬capacity ≤ (s.next : ℤ) →
      ∀ old, s.agents mandateId = some old → old = agentId
  | .link mandateId agentId => ∀ old, s.agents mandateId = some old → old = agentId
  | _ => True

/-- An index is given out by an allocation with room for it, or none is. -/
theorem perform_indices (s : MemoryRevocationStore) (op : StoreOp) :
    ((s.perform op).2.indices = s.indices ∧ (s.perform op).2.next = s.next) ∨
      ∃ mandateId agentId capacity, op = .allocate mandateId agentId capacity ∧
        s.indices mandateId = none ∧ ¬capacity ≤ (s.next : ℤ) ∧
        (s.perform op).2.indices = Function.update s.indices mandateId (some s.next) ∧
        (s.perform op).2.next = s.next + 1 := by
  cases op with
  | allocate mandateId agentId capacity =>
    rw [perform, MemoryRevocationStore.allocate]
    cases held : s.indices mandateId with
    | some existing => exact .inl ⟨linkSome_indices, linkSome_next⟩
    | none =>
      by_cases full : capacity ≤ (s.next : ℤ)
      · exact .inl (by simp [full])
      · exact .inr ⟨mandateId, agentId, capacity, rfl, held, full, by simp [full]⟩
  | blockAgent agentId block =>
    refine .inl ?_
    rw [perform, MemoryRevocationStore.blockAgent]
    split <;> exact ⟨rfl, rfl⟩
  | _ => exact .inl ⟨rfl, rfl⟩

theorem linkSome_agents (s : MemoryRevocationStore) (mandateId : JsString) (link : Option JsString) :
    (s.linkSome mandateId link).agents =
      (link.map fun agentId => (mandateId, agentId)).elim s.agents fun p =>
        Function.update s.agents p.1 (some p.2) := by
  cases link <;> rfl

theorem mem_linkSome (s : MemoryRevocationStore) (mandateId : JsString) (link : Option JsString) :
    m ∈ (s.linkSome mandateId link).byAgent a ↔
      m ∈ s.byAgent a ∨ (link.map fun agentId => (mandateId, agentId)) = some (m, a) := by
  cases link with
  | none => simp [linkSome]
  | some agentId =>
    simp only [linkSome, linkSync, Option.map_some, Option.some.injEq, Prod.mk.injEq]
    rcases eq_or_ne a agentId with rfl | other
    · rw [Function.update_self]
      split
      · constructor
        · exact .inl
        · rintro (already | ⟨rfl, -⟩)
          · exact already
          · assumption
      · simp only [List.mem_append, List.mem_singleton, and_true, eq_comm]
    · rw [Function.update_of_ne other]
      simp [Ne.symm other]

/-- What an operation does to the two maps of agents. -/
theorem perform_agents (s : MemoryRevocationStore) (op : StoreOp) :
    ∃ link, op.association (s.perform op).1 = link ∧
      (s.perform op).2.agents = link.elim s.agents (fun p => Function.update s.agents p.1 (some p.2)) ∧
      ∀ m a, m ∈ (s.perform op).2.mandatesFor a ↔ m ∈ s.mandatesFor a ∨ link = some (m, a) := by
  cases op with
  | allocate mandateId agentId capacity =>
    rw [perform, MemoryRevocationStore.allocate]
    cases held : s.indices mandateId with
    | some existing =>
      have associated : (StoreOp.allocate mandateId agentId capacity).association (some existing) =
          agentId.map fun agentId => (mandateId, agentId) := by cases agentId <;> rfl
      exact ⟨_, associated, linkSome_agents .., fun m a => mem_linkSome s mandateId agentId⟩
    | none =>
      by_cases full : capacity ≤ (s.next : ℤ)
      · refine ⟨none, ?_, ?_, ?_⟩
        · cases agentId <;> simp [full, StoreOp.association]
        · simp [full]
        · simp [full]
      · have associated : (StoreOp.allocate mandateId agentId capacity).association (some s.next) =
            agentId.map fun agentId => (mandateId, agentId) := by cases agentId <;> rfl
        simp only [full, if_false]
        exact ⟨_, associated, linkSome_agents .., fun m a => mem_linkSome _ mandateId agentId⟩
  | link mandateId agentId =>
    exact ⟨_, rfl, rfl, fun m a => mem_linkSome s mandateId (some agentId)⟩
  | blockAgent agentId block =>
    refine ⟨none, rfl, ?_, fun m a => ?_⟩ <;> rw [perform, MemoryRevocationStore.blockAgent]
    · split <;> rfl
    · split <;> simp [mandatesFor]
  | _ => exact ⟨none, rfl, rfl, fun m a => by simp [perform, mandatesFor, MemoryRevocationStore.revoke,
      MemoryRevocationStore.clear, MemoryRevocationStore.unblockAgent]⟩

/-! ### Runs -/

/-- The store after a run that began with an empty one. -/
def after (ops : List StoreOp) : MemoryRevocationStore := (Machine.play perform empty ops).2

theorem perform_kept {s : MemoryRevocationStore} (op : StoreOp) (held : s.indices m = some n) :
    (s.perform op).2.indices m = some n := by
  rcases s.perform_indices op with ⟨same, -⟩ | ⟨mandateId, _, _, -, free, -, given, -⟩
  · rw [same]
    exact held
  · rw [given, Function.update_of_ne]
    · exact held
    · rintro rfl
      rw [free] at held
      cases held

theorem perform_packed {s : MemoryRevocationStore} (op : StoreOp) (packed : Packed s.indices s.next) :
    Packed (s.perform op).2.indices (s.perform op).2.next := by
  rcases s.perform_indices op with ⟨same, next⟩ | ⟨_, _, _, -, free, -, given, next⟩
  · rw [same, next]
    exact packed
  · rw [given, next]
    exact packed.assign free

theorem agents_play (s : MemoryRevocationStore) (ops : List StoreOp) :
    (Machine.play perform s ops).2.agents = (s.associations ops).foldl
      (fun known (p : JsString × JsString) => Function.update known p.1 (some p.2)) s.agents := by
  induction ops generalizing s with
  | nil => rfl
  | cons op ops ih =>
    obtain ⟨link, associated, agents, -⟩ := s.perform_agents op
    rw [Machine.play, ih, associations, associated, List.foldl_append, agents]
    cases link <;> rfl

/-- Every mandate is listed under the agent it has, and under no other. -/
def Listed (s : MemoryRevocationStore) : Prop := ∀ m a, m ∈ s.mandatesFor a ↔ s.agents m = some a

theorem KeepsAgent.association {s : MemoryRevocationStore} {op : StoreOp} (keeps : s.KeepsAgent op)
    (associated : op.association (s.perform op).1 = some (m, a)) (held : s.agents m = some old) :
    old = a := by
  cases op with
  | allocate mandateId agentId capacity =>
    cases agentId with
    | none => cases associated
    | some agentId =>
      rw [perform, MemoryRevocationStore.allocate] at associated
      cases found : s.indices mandateId with
      | some existing =>
        simp only [found, StoreOp.association, Option.some.injEq, Prod.mk.injEq] at associated
        obtain ⟨rfl, rfl⟩ := associated
        exact keeps (.inl (by simp [found])) old held
      | none =>
        by_cases full : capacity ≤ (s.next : ℤ)
        · simp [found, full, StoreOp.association] at associated
        · simp only [found, full, if_false, StoreOp.association, Option.some.injEq,
            Prod.mk.injEq] at associated
          obtain ⟨rfl, rfl⟩ := associated
          exact keeps (.inr full) old held
  | link mandateId agentId =>
    cases associated
    exact keeps old held
  | _ => cases associated

theorem perform_listed {s : MemoryRevocationStore} {op : StoreOp} (listed : Listed s)
    (keeps : s.KeepsAgent op) : Listed (s.perform op).2 := by
  obtain ⟨link, associated, agents, members⟩ := s.perform_agents op
  intro m a
  rw [members, agents, listed]
  cases link with
  | none => simp
  | some p =>
    obtain ⟨mandateId, agentId⟩ := p
    rcases eq_or_ne m mandateId with rfl | other
    · simp only [Option.elim_some, Function.update_self, Option.some.injEq, Prod.mk.injEq, true_and]
      constructor
      · rintro (held | same)
        · exact (keeps.association associated held).symm
        · exact same
      · exact .inr
    · simp [Function.update_of_ne other, Ne.symm other]

theorem below_play {bound : Number} {s : MemoryRevocationStore} {ops : List StoreOp}
    (within : ∀ m l c, StoreOp.allocate m l c ∈ ops → c ≤ bound)
    (below : ∀ m n, s.indices m = some n → ((n : ℤ) : Number) < bound) :
    ∀ m n, (Machine.play perform s ops).2.indices m = some n → ((n : ℤ) : Number) < bound := by
  induction ops generalizing s with
  | nil => exact below
  | cons op ops ih =>
    refine ih (fun m l c member => within m l c (.tail _ member)) fun m n held => ?_
    rcases s.perform_indices op with ⟨same, -⟩ | ⟨mandateId, _, capacity, rfl, free, room, given, -⟩
    · rw [same] at held
      exact below m n held
    · rw [given] at held
      rcases eq_or_ne m mandateId with rfl | other
      · rw [Function.update_self, Option.some.injEq] at held
        subst held
        exact natCast_lt_of_capacity room (within _ _ _ List.mem_cons_self)
      · rw [Function.update_of_ne other] at held
        exact below m n held

/-- What holds of the store after a run. -/
structure Bits (ops : List StoreOp) : Prop where
  /-- No two mandates have one index, and the indices given out are those below their number. -/
  packed : Packed (after ops).indices (after ops).snapshot.assigned
  /-- An index stays with its mandate. -/
  kept : ∀ {m n} more, (after ops).indices m = some n →
    (Machine.play perform (after ops) more).2.indices m = some n
  /-- Every index is below the capacity of the list. -/
  below : ∀ bound, (∀ m l c, StoreOp.allocate m l c ∈ ops → c ≤ bound) →
    ∀ m n, (after ops).indices m = some n → ((n : ℤ) : Number) < bound
  /-- A list whose indices are all given out refuses a mandate that has none. -/
  full : ∀ {m l c}, (after ops).indices m = none → c ≤ (((after ops).snapshot.assigned : ℤ) : Number) →
    (after ops).perform (.allocate m l c) = (none, after ops)
  /-- A refused allocation changes nothing. -/
  refused : ∀ {m l c}, ((after ops).perform (.allocate m l c)).1 = none →
    ((after ops).perform (.allocate m l c)).2 = after ops
  /-- As long as no mandate changes its agent, each is listed under the agent it was associated with
  last. -/
  listed : Machine.Permitted perform KeepsAgent empty ops → ∀ m a,
    m ∈ (after ops).mandatesFor a ↔ latest (empty.associations ops) m = some a

theorem bits (ops : List StoreOp) : Bits ops where
  packed := Machine.play_invariant (I := fun s : MemoryRevocationStore => Packed s.indices s.next)
    (fun _ op packed _ => perform_packed op packed) Packed.empty
    (Machine.Permitted.always (fun _ _ => trivial) _ ops)
  kept {m n} more held := Machine.play_invariant (I := fun s : MemoryRevocationStore => s.indices m = some n)
    (fun _ op held _ => perform_kept op held) held (Machine.Permitted.always (fun _ _ => trivial) _ more)
  below bound within := below_play within nofun
  full := by
    intro m l c free reached
    rw [perform, MemoryRevocationStore.allocate, free]
    simp only [snapshot] at reached
    simp [reached]
  refused := by
    intro m l c none
    rw [perform, MemoryRevocationStore.allocate] at none ⊢
    split at none
    · cases none
    · split at none
      · rename_i free full
        simp [full]
      · cases none
  listed permitted m a := by
    have listed : Listed (after ops) :=
      Machine.play_invariant (fun _ _ listed keeps => perform_listed listed keeps)
        (fun m a => by simp [empty, mandatesFor]) permitted
    rw [listed m a, after, agents_play]
    rfl

end MemoryRevocationStore
end Vaduno.Revocation
