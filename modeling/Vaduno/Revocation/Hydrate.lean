import Vaduno.Revocation.Steps

/-! Rebuilding a registry from a ledger. The rows do carry the indices of mandates, but indices are
given out anew, in the order of the rows. -/
namespace Vaduno.Revocation
open Ecma Ledger

/-- `(e.data ?? {})[key]`. -/
def field (data : JsValue) (key : JsString) : JsValue :=
  match data with
  | .object props => ((props.find? (·.1 = key)).map Prod.snd).getD .undefined
  | _ => .undefined

/-- A value whose `typeof` is `"string"`. -/
def asText : JsValue → Option JsString
  | .string text => some text
  | _ => none

/-- A value whose `typeof` is `"number"`. -/
def asNumber : JsValue → Option Number
  | .number n => some n
  | _ => none

def purposeOf (data : JsValue) : StatusPurpose :=
  if asText (field data "purpose") = some (encode "suspension") then .suspension else .revocation

/-- `d.agentId ?? e.agentId`. -/
def linkedAgent (row : Entry) : Option JsString :=
  match field row.data "agentId" with
  | .undefined | .null => row.refs.agentId
  | other => asText other

/-- `typeof d.agentId === "string" ? d.agentId : e.agentId`. -/
def namedAgent (row : Entry) : Option JsString :=
  (asText (field row.data "agentId")).or row.refs.agentId

/-- What hydration rebuilds: the store, and the highest version published. -/
structure Hydrated where
  store : MemoryRevocationStore
  lastPublishedVersion : Number

namespace Hydrated
variable (entries : Number) (h : Hydrated)

/-- A revoked mandate, registered or not, takes an index; its record keeps the index of the row. -/
def revoked (row : Entry) (mandateId : JsString) : MemoryRevocationStore :=
  let agentId := (namedAgent row).or (h.store.agents mandateId)
  let store := (h.store.allocate mandateId agentId entries).2
  store.revoke {
    mandateId
    index := (asNumber (field row.data "statusListIndex")).or
      ((store.indices mandateId).map fun n : ℕ => ((n : ℤ) : Number))
    purpose := purposeOf row.data
    revokedAt := row.timestamp
    reason := asText (field row.data "reason")
    byWhom := asText (field row.data "by")
    agentId }

def row (row : Entry) : Hydrated :=
  match row.type with
  | .mandateIndexAssigned =>
    match asText (field row.data "mandateId"), linkedAgent row with
    | some mandateId, some agentId =>
      { h with store := (h.store.allocate mandateId (some agentId) entries).2 }
    | _, _ => h
  | .mandateRevoked =>
    match asText (field row.data "mandateId") with
    | some mandateId => { h with store := h.revoked entries row mandateId }
    | none => h
  | .mandateUnsuspended =>
    match asText (field row.data "mandateId") with
    | some mandateId => { h with store := h.store.clear mandateId }
    | none => h
  | .agentRevoked =>
    match namedAgent row with
    | some agentId =>
      let block : AgentBlock := ⟨asText (field row.data "reason"), asText (field row.data "by"),
        row.timestamp, purposeOf row.data⟩
      { h with store := h.store.blockAgent agentId block }
    | none => h
  | .agentUnblocked =>
    match namedAgent row with
    | some agentId => { h with store := h.store.unblockAgent agentId }
    | none => h
  | .statusListPublished =>
    match asNumber (field row.data "version") with
    | some version => { h with lastPublishedVersion := maxOf h.lastPublishedVersion version }
    | none => h
  | _ => h

end Hydrated

/-- `hydrateFromLedger` on a fresh instance. -/
def hydrateFromLedger (entries : Number) (ledger : List Entry) : Hydrated :=
  ledger.foldl (Hydrated.row entries) ⟨.empty, -1⟩

/-! ### Numberings

Indices are given out one after another, up to a capacity. -/

@[ext] structure Numbering where
  indices : JsString → Option ℕ
  next : ℕ

namespace Numbering

/-- A mandate gets the next index if it has none and one is left. -/
def assign (n : Numbering) (mandateId : JsString) (capacity : Number) : Numbering :=
  if n.indices mandateId = none ∧ ¬capacity ≤ (n.next : ℤ) then
    ⟨Function.update n.indices mandateId (some n.next), n.next + 1⟩
  else n

/-- Every index given out is below the next one, and belongs to one mandate. -/
structure Sound (n : Numbering) : Prop where
  below : ∀ mandateId k, n.indices mandateId = some k → k < n.next
  single : ∀ mandateId other k, n.indices mandateId = some k → n.indices other = some k →
    mandateId = other

variable {n : Numbering} {mandateId other : JsString} {capacity : Number}

theorem assign_of_some (known : n.indices mandateId = some k) : n.assign mandateId capacity = n := by
  rw [assign, if_neg]
  rintro ⟨free, -⟩
  rw [known] at free
  cases free

/-- An index once given stays. -/
theorem indices_assign_of_some (known : n.indices other = some k) :
    (n.assign mandateId capacity).indices other = some k := by
  unfold assign
  split
  · rename_i fresh
    have different : other ≠ mandateId := by
      rintro rfl
      rw [fresh.1] at known
      cases known
    exact (Function.update_of_ne different _ _).trans known
  · exact known

theorem assign_of_none (unassigned : (n.assign mandateId capacity).indices mandateId = none) :
    n.assign mandateId capacity = n := by
  unfold assign at unassigned ⊢
  split at unassigned
  · cases (Function.update_self ..).symm.trans unassigned
  · rw [if_neg ‹_›]

theorem assign_assign : (n.assign mandateId capacity).assign mandateId capacity =
    n.assign mandateId capacity := by
  cases known : (n.assign mandateId capacity).indices mandateId with
  | some k => exact assign_of_some known
  | none => rw [assign_of_none known, assign_of_none known]

theorem Sound.assign (sound : n.Sound) : (n.assign mandateId capacity).Sound := by
  unfold Numbering.assign
  split
  · have fresh : ∀ {m k}, Function.update n.indices mandateId (some n.next) m = some k →
        m = mandateId ∧ k = n.next ∨ n.indices m = some k ∧ k < n.next := by
      intro m k known
      by_cases same : m = mandateId
      · subst same
        rw [Function.update_self] at known
        exact .inl ⟨rfl, (Option.some.inj known).symm⟩
      · rw [Function.update_of_ne same] at known
        exact .inr ⟨known, sound.below m k known⟩
    refine ⟨fun m k known => ?_, fun m m' k left right => ?_⟩
    · rcases fresh known with ⟨-, rfl⟩ | ⟨-, below⟩
      · exact Nat.lt_succ_self _
      · exact below.trans (Nat.lt_succ_self _)
    · rcases fresh left with ⟨rfl, rfl⟩ | ⟨left, below⟩
      · rcases fresh right with ⟨rfl, -⟩ | ⟨-, below⟩
        · rfl
        · exact absurd below (lt_irrefl _)
      · rcases fresh right with ⟨-, rfl⟩ | ⟨right, -⟩
        · exact absurd below (lt_irrefl _)
        · exact sound.single m m' k left right
  · exact sound

/-- Giving another mandate an index first makes no difference if it gets none, or the very index that
the two together would give it. -/
theorem assign_comm_of (sound : n.Sound) (order : n.assign other capacity = n ∨
      (n.assign mandateId capacity).indices other = some n.next) :
    (n.assign other capacity).assign mandateId capacity = n.assign mandateId capacity := by
  rcases order with idle | early
  · rw [idle]
  · have mine : other = mandateId := by
      by_contra different
      unfold assign at early
      split at early
      · have known := (Function.update_of_ne different _ _).symm.trans early
        exact absurd (sound.below _ _ known) (lt_irrefl _)
      · exact absurd (sound.below _ _ early) (lt_irrefl _)
    rw [mine, assign_assign]

end Numbering

/-! ### What a row gives out -/

def MemoryRevocationStore.numbering (s : MemoryRevocationStore) : Numbering := ⟨s.indices, s.next⟩

theorem allocate_numbering (s : MemoryRevocationStore) (mandateId : JsString)
    (agentId : Option JsString) (capacity : Number) :
    (s.allocate mandateId agentId capacity).2.numbering = s.numbering.assign mandateId capacity ∧
    (s.allocate mandateId agentId capacity).1 =
      (s.numbering.assign mandateId capacity).indices mandateId := by
  unfold MemoryRevocationStore.allocate
  cases known : s.indices mandateId with
  | some existing =>
    have unmoved : s.numbering.assign mandateId capacity = s.numbering :=
      Numbering.assign_of_some known
    rw [unmoved]
    exact ⟨Numbering.ext (MemoryRevocationStore.linkSome_indices)
      (MemoryRevocationStore.linkSome_next), known.symm⟩
  | none =>
    by_cases full : capacity ≤ (s.next : ℤ)
    · have unmoved : s.numbering.assign mandateId capacity = s.numbering :=
        if_neg fun fresh => fresh.2 full
      dsimp only
      rw [if_pos full, unmoved]
      exact ⟨rfl, known.symm⟩
    · have moved : s.numbering.assign mandateId capacity =
          ⟨Function.update s.indices mandateId (some s.next), s.next + 1⟩ := if_pos ⟨known, full⟩
      dsimp only
      rw [if_neg full, moved]
      refine ⟨Numbering.ext MemoryRevocationStore.linkSome_indices
        MemoryRevocationStore.linkSome_next, ?_⟩
      exact (Function.update_self mandateId (some s.next) s.indices).symm

/-- The mandate that a row gives an index, if it has none by then. -/
def namedBy (row : Entry) : Option JsString :=
  match row.type with
  | .mandateIndexAssigned =>
    if (linkedAgent row).isSome then asText (field row.data "mandateId") else none
  | .mandateRevoked => asText (field row.data "mandateId")
  | _ => none

/-- What a row does to a numbering. -/
def Numbering.row (entries : Number) (n : Numbering) (row : Entry) : Numbering :=
  match namedBy row with
  | some mandateId => n.assign mandateId entries
  | none => n

theorem hydrated_row_numbering (entries : Number) (h : Hydrated) (row : Entry) :
    (h.row entries row).store.numbering = h.store.numbering.row entries row := by
  rw [Numbering.row, namedBy, Hydrated.row]
  cases kind : row.type with
  | mandateIndexAssigned =>
    dsimp only
    cases mandate : asText (field row.data "mandateId") with
    | none => cases linkedAgent row <;> rfl
    | some mandateId =>
      cases linkedAgent row with
      | none => rfl
      | some agentId => exact (allocate_numbering h.store mandateId (some agentId) entries).1
  | mandateRevoked =>
    dsimp only
    cases mandate : asText (field row.data "mandateId") with
    | none => rfl
    | some mandateId => exact (allocate_numbering h.store mandateId _ entries).1
  | mandateUnsuspended =>
    dsimp only
    cases asText (field row.data "mandateId") <;> rfl
  | agentRevoked =>
    dsimp only
    cases namedAgent row with
    | none => rfl
    | some agentId =>
      dsimp only
      unfold MemoryRevocationStore.blockAgent
      split <;> rfl
  | agentUnblocked =>
    dsimp only
    cases namedAgent row <;> rfl
  | statusListPublished =>
    dsimp only
    cases asNumber (field row.data "version") <;> rfl
  | _ => rfl

/-- The numbering that a ledger rebuilds. -/
def replayed (entries : Number) (ledger : List Entry) : Numbering :=
  ledger.foldl (Numbering.row entries) ⟨fun _ => none, 0⟩

theorem hydrate_numbering (entries : Number) (ledger : List Entry) :
    (hydrateFromLedger entries ledger).store.numbering = replayed entries ledger := by
  suffices folded : ∀ (h : Hydrated), (ledger.foldl (Hydrated.row entries) h).store.numbering =
      ledger.foldl (Numbering.row entries) h.store.numbering from folded _
  intro h
  induction ledger generalizing h with
  | nil => rfl
  | cons row rest ih =>
    rw [List.foldl_cons, List.foldl_cons, ih, hydrated_row_numbering]

theorem replayed_append (entries : Number) (ledger : List Entry) (row : Entry) :
    replayed entries (ledger ++ [row]) = (replayed entries ledger).row entries row := by
  rw [replayed, List.foldl_append]
  rfl

theorem replayed_sound (entries : Number) (ledger : List Entry) : (replayed entries ledger).Sound := by
  induction ledger using List.reverseRecOn with
  | nil => exact ⟨nofun, nofun⟩
  | append_singleton rows row ih =>
    rw [replayed_append, Numbering.row]
    split
    · exact ih.assign
    · exact ih

end Vaduno.Revocation
