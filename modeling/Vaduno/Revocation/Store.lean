import Vaduno.Keyed
import Vaduno.Revocation.StatusList

/-! The in-memory store of a registry: the index of every mandate, what is revoked, which mandates
an agent has, and which agents are blocked. -/
namespace Vaduno.Revocation
open Ecma

structure RevocationRecord where
  mandateId : JsString
  /-- The bit in the published list; `none` where the list was full at the time. -/
  index : Option Number
  purpose : StatusPurpose
  revokedAt : JsString
  reason : Option JsString
  byWhom : Option JsString
  agentId : Option JsString
  deriving DecidableEq

structure AgentBlock where
  reason : Option JsString
  byWhom : Option JsString
  blockedAt : JsString
  /-- A suspension can be lifted, a revocation cannot. -/
  purpose : StatusPurpose
  deriving DecidableEq

structure RegistrySnapshot where
  records : List RevocationRecord
  blockedAgents : List JsString
  assigned : ℕ

/-- Map entries count in whole numbers: `next` is the size of `indices`. -/
structure MemoryRevocationStore where
  indices : JsString → Option ℕ
  records : Keyed RevocationRecord.mandateId
  agents : JsString → Option JsString
  /-- The mandates ever linked to an agent, in the order of their first link. -/
  byAgent : JsString → List JsString
  blocked : Keyed (Prod.fst : JsString × AgentBlock → JsString)
  next : ℕ

namespace MemoryRevocationStore

def empty : MemoryRevocationStore := ⟨fun _ => none, .empty, fun _ => none, fun _ => [], .empty, 0⟩

variable (s : MemoryRevocationStore)

def linkSync (mandateId agentId : JsString) : MemoryRevocationStore :=
  { s with
    agents := Function.update s.agents mandateId (some agentId)
    byAgent := Function.update s.byAgent agentId (if mandateId ∈ s.byAgent agentId then s.byAgent agentId
      else s.byAgent agentId ++ [mandateId]) }

def linkSome (mandateId : JsString) : Option JsString → MemoryRevocationStore
  | none => s
  | some agentId => s.linkSync mandateId agentId

/-- The next free index, in one step with recording it; a mandate keeps the index it has. A full list
gives none and links nothing. -/
def allocate (mandateId : JsString) (agentId : Option JsString) (capacity : Number) :
    Option ℕ × MemoryRevocationStore :=
  match s.indices mandateId with
  | some existing => (some existing, s.linkSome mandateId agentId)
  | none =>
    if capacity ≤ (s.next : ℤ) then (none, s)
    else (some s.next, { s with
      next := s.next + 1
      indices := Function.update s.indices mandateId (some s.next) }.linkSome mandateId agentId)

def get (mandateId : JsString) : Option RevocationRecord := s.records.find mandateId

def revoke (record : RevocationRecord) : MemoryRevocationStore :=
  { s with records := s.records.put record }

def clear (mandateId : JsString) : MemoryRevocationStore :=
  { s with records := s.records.erase mandateId }

def getAgentBlock (agentId : JsString) : Option AgentBlock := (s.blocked.find agentId).map Prod.snd

/-- A permanent block is never downgraded to one that can be lifted. -/
def blockAgent (agentId : JsString) (block : AgentBlock) : MemoryRevocationStore :=
  if (s.getAgentBlock agentId).any (·.purpose = .revocation) then s
  else { s with blocked := s.blocked.put (agentId, block) }

def unblockAgent (agentId : JsString) : MemoryRevocationStore :=
  { s with blocked := s.blocked.erase agentId }

def isAgentBlocked (agentId : JsString) : Bool := (s.blocked.find agentId).isSome

def snapshot : RegistrySnapshot := ⟨s.records.rows, s.blocked.rows.map Prod.fst, s.next⟩

/-! ### What each write does to each map -/

section Writes
variable {s} {mandateId agentId : JsString}

@[simp] theorem linkSome_indices : (s.linkSome mandateId link).indices = s.indices := by
  cases link <;> rfl

@[simp] theorem linkSome_next : (s.linkSome mandateId link).next = s.next := by
  cases link <;> rfl

@[simp] theorem linkSome_records : (s.linkSome mandateId link).records = s.records := by
  cases link <;> rfl

@[simp] theorem linkSome_blocked : (s.linkSome mandateId link).blocked = s.blocked := by
  cases link <;> rfl

theorem allocate_records (capacity : Number) :
    (s.allocate mandateId link capacity).2.records = s.records := by
  unfold allocate
  split
  · exact linkSome_records
  · split
    · rfl
    · exact linkSome_records

theorem allocate_blocked (capacity : Number) :
    (s.allocate mandateId link capacity).2.blocked = s.blocked := by
  unfold allocate
  split
  · exact linkSome_blocked
  · split
    · rfl
    · exact linkSome_blocked

theorem get_revoke (record : RevocationRecord) : (s.revoke record).get mandateId =
    if record.mandateId = mandateId then some record else s.get mandateId :=
  s.records.find_put record mandateId

theorem get_clear (cleared : JsString) : (s.clear cleared).get mandateId =
    if mandateId = cleared then none else s.get mandateId :=
  s.records.find_erase cleared mandateId

theorem getAgentBlock_unblockAgent (lifted : JsString) :
    (s.unblockAgent lifted).getAgentBlock agentId =
      if agentId = lifted then none else s.getAgentBlock agentId := by
  rw [getAgentBlock, unblockAgent, Keyed.find_erase]
  split_ifs <;> rfl

theorem isAgentBlocked_of_block (blocked : s.getAgentBlock agentId = some block) :
    s.isAgentBlocked agentId = true := by
  rw [getAgentBlock, Option.map_eq_some_iff] at blocked
  obtain ⟨row, found, -⟩ := blocked
  rw [isAgentBlocked, found]
  rfl

/-- Blocking keeps a permanent block, and puts the new one in place of any other. -/
theorem getAgentBlock_blockAgent (blockee : JsString) (block : AgentBlock) :
    (s.blockAgent blockee block).getAgentBlock agentId =
      if blockee = agentId ∧ ¬(s.getAgentBlock blockee).any (·.purpose = .revocation) then some block
      else s.getAgentBlock agentId := by
  by_cases kept : (s.getAgentBlock blockee).any (·.purpose = .revocation)
  · rw [blockAgent, if_pos kept, if_neg fun replaced => replaced.2 kept]
  · rw [blockAgent, if_neg kept, getAgentBlock, Keyed.find_put]
    by_cases same : blockee = agentId
    · rw [if_pos same, if_pos ⟨same, kept⟩]
      rfl
    · rw [if_neg same, if_neg fun replaced => same replaced.1]
      rfl

end Writes
end MemoryRevocationStore
end Vaduno.Revocation
