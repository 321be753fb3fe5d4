import Vaduno.Approval.Fingerprint
import Vaduno.Keyed

/-! The queue that an agent's requests wait in for a human's decision, and the polling handler before
it. The contract is stated once; the queues in memory and over a file each keep it. -/
namespace Vaduno.Approval
open Ecma

/-- A payment waiting for a human decision. -/
structure PendingApproval where
  intentId : JsString
  agentId : JsString
  amount : Money
  merchant : MerchantRef
  policyReasons : List PolicyReason
  requestedAt : JsString
  fingerprint : Option JsString

structure ApprovalResponse where
  approved : Bool
  approver : Option JsString
  note : Option JsString
  deriving DecidableEq

structure ApprovalDecision extends ApprovalResponse where
  decidedAt : JsString
  fingerprint : Option JsString
  deriving DecidableEq

/-- What a handler is asked about. -/
structure HandlerRequest where
  intent : PaymentIntent
  policyReasons : List PolicyReason
  requestedAt : JsString

/-! ### The handler -/

/-- What the handler enqueues. -/
def HandlerRequest.pending (req : HandlerRequest) (fingerprint : JsString) : PendingApproval where
  intentId := req.intent.id
  agentId := req.intent.agentId
  amount := req.intent.amount
  merchant := req.intent.merchant
  policyReasons := req.policyReasons
  requestedAt := req.requestedAt
  fingerprint := some fingerprint

/-- A handler between two polls. -/
structure Waiting (platform : Platform) where
  intent : PaymentIntent
  fingerprint : JsString
  deadline : Number
  fingerprinted : approvalFingerprint platform intent = .ok fingerprint

inductive Polled
  | answered (response : ApprovalResponse)
  /-- The handler rejects the item itself before it answers. -/
  | timedOut
  | waiting
  deriving DecidableEq

def timedOut : ApprovalResponse := ⟨false, none, some "approval timed out"⟩

/-- One poll: the decision on file must have been made for this very payment. -/
def Waiting.poll {platform : Platform} (w : Waiting platform) (decision : Option ApprovalDecision)
    (nowMs : Number) : Polled :=
  match decision with
  | some d =>
    if d.fingerprint ≠ some w.fingerprint then
      .answered ⟨false, none, some "approval does not match this payment"⟩
    else .answered d.toApprovalResponse
  | none => if w.deadline ≤ nowMs then .timedOut else .waiting

/-- A handler approves on a decision for its own payment only. -/
theorem Waiting.poll_approved {platform : Platform} {w : Waiting platform}
    {decision : Option ApprovalDecision} {nowMs : Number} {response : ApprovalResponse}
    (answered : w.poll decision nowMs = .answered response) (approved : response.approved = true) :
    ∃ d, decision = some d ∧ d.approved = true ∧ d.fingerprint = some w.fingerprint := by
  unfold poll at answered
  split at answered
  · rename_i d
    split_ifs at answered with other
    · cases answered
      cases approved
    · cases answered
      exact ⟨d, rfl, approved, not_not.mp other⟩
  · split_ifs at answered

/-! ### The contract -/

section Contract
variable {σ : Type} (listPending : σ → List PendingApproval)
  (getDecision : σ → JsString → Option ApprovalDecision)

/-- The item that a listing shows under an id. -/
def pendingOf (s : σ) (intentId : JsString) : Option PendingApproval :=
  (listPending s).find? (·.intentId = intentId)

/-- The decision that a response makes: one for what is pending under an id that has none. The clock
gives no text for a time outside the calendar, and then there is none. -/
def decided (s : σ) (intentId : JsString) (response : ApprovalResponse) (decidedAt : Throwing JsString) :
    Option ApprovalDecision :=
  match getDecision s intentId, pendingOf listPending s intentId, decidedAt with
  | none, some p, .ok decidedAt => some { response with decidedAt, fingerprint := p.fingerprint }
  | _, _, _ => none

end Contract

structure ApprovalStore (σ : Type) where
  start : σ
  enqueue : σ → PendingApproval → σ
  listPending : σ → List PendingApproval
  resolve : σ → JsString → ApprovalResponse → Throwing JsString → σ
  getDecision : σ → JsString → Option ApprovalDecision
  start_pending : ∀ id, pendingOf listPending start id = none
  start_decision : ∀ id, getDecision start id = none
  /-- An undecided id shows what was enqueued last; JSON carries the amount if it is finite. -/
  enqueue_pending : ∀ s item id, item.amount.amountMinor.isFinite = true →
    pendingOf listPending (enqueue s item) id =
      if getDecision s item.intentId = none ∧ id = item.intentId then some item
      else pendingOf listPending s id
  enqueue_decision : ∀ s item id, getDecision (enqueue s item) id = getDecision s id
  resolve_pending : ∀ s id response decidedAt id',
    pendingOf listPending (resolve s id response decidedAt) id' =
      if id' = id ∧ (decided listPending getDecision s id response decidedAt).isSome = true then none
      else pendingOf listPending s id'
  resolve_decision : ∀ s id response decidedAt id',
    getDecision (resolve s id response decidedAt) id' =
      if id' = id then
        (getDecision s id).or (decided listPending getDecision s id response decidedAt)
      else getDecision s id'

/-! ### In memory -/

/-- A decision under the id it was made for. -/
abbrev FiledDecision := JsString × ApprovalDecision

structure MemoryApprovalStore where
  pending : Keyed PendingApproval.intentId
  decisions : Keyed (Prod.fst : FiledDecision → JsString)

namespace MemoryApprovalStore
variable (s : MemoryApprovalStore)

def empty : MemoryApprovalStore := ⟨Keyed.empty, Keyed.empty⟩

def getDecision (intentId : JsString) : Option ApprovalDecision :=
  (s.decisions.find intentId).map Prod.snd

def enqueue (item : PendingApproval) : MemoryApprovalStore :=
  if (s.decisions.find item.intentId).isNone then { s with pending := s.pending.put item } else s

def listPending : List PendingApproval := s.pending.rows

def resolve (intentId : JsString) (response : ApprovalResponse) (decidedAt : Throwing JsString) :
    MemoryApprovalStore :=
  if (s.decisions.find intentId).isSome then s
  else
    match s.pending.find intentId, decidedAt with
    | some p, .ok decidedAt => {
        pending := s.pending.erase intentId
        decisions := s.decisions.put (intentId, { response with decidedAt, fingerprint := p.fingerprint }) }
    | _, _ => s

theorem pendingOf_eq (id : JsString) : pendingOf listPending s id = s.pending.find id := rfl

theorem find_none_iff (id : JsString) : (s.decisions.find id).isNone = true ↔ s.getDecision id = none := by
  rw [getDecision, Option.map_eq_none_iff, Option.isNone_iff_eq_none]

theorem enqueue_pending (item : PendingApproval) (id : JsString) :
    pendingOf listPending (s.enqueue item) id =
      if s.getDecision item.intentId = none ∧ id = item.intentId then some item
      else pendingOf listPending s id := by
  unfold enqueue
  by_cases undecided : (s.decisions.find item.intentId).isNone = true
  · rw [if_pos undecided, pendingOf_eq, Keyed.find_put, pendingOf_eq]
    refine if_congr ⟨fun same => ⟨(s.find_none_iff _).mp undecided, same.symm⟩, fun both => both.2.symm⟩ rfl rfl
  · rw [if_neg undecided, if_neg fun both => undecided ((s.find_none_iff _).mpr both.1)]

theorem enqueue_decision (item : PendingApproval) (id : JsString) :
    (s.enqueue item).getDecision id = s.getDecision id := by
  unfold enqueue
  split_ifs
  · rfl
  · rfl

/-- A response either decides what is pending, or leaves the store as it is. -/
theorem resolve_cases (id : JsString) (response : ApprovalResponse) (decidedAt : Throwing JsString) :
    (∃ d, decided listPending getDecision s id response decidedAt = some d ∧ s.getDecision id = none ∧
      s.resolve id response decidedAt = ⟨s.pending.erase id, s.decisions.put (id, d)⟩) ∨
    decided listPending getDecision s id response decidedAt = none ∧
      s.resolve id response decidedAt = s := by
  unfold resolve decided
  cases found : s.decisions.find id with
  | some d =>
    right
    rw [getDecision, found]
    exact ⟨rfl, rfl⟩
  | none =>
    rw [getDecision, found, pendingOf_eq]
    cases s.pending.find id with
    | none => exact .inr ⟨rfl, rfl⟩
    | some p =>
      cases decidedAt with
      | error thrown => exact .inr ⟨rfl, rfl⟩
      | ok decidedAt => exact .inl ⟨_, rfl, rfl, rfl⟩

theorem resolve_pending (id : JsString) (response : ApprovalResponse) (decidedAt : Throwing JsString)
    (id' : JsString) : pendingOf listPending (s.resolve id response decidedAt) id' =
      if id' = id ∧ (decided listPending getDecision s id response decidedAt).isSome = true then none
      else pendingOf listPending s id' := by
  rcases s.resolve_cases id response decidedAt with ⟨d, made, -, moved⟩ | ⟨none, kept⟩
  · rw [moved, made, pendingOf_eq, Keyed.find_erase, pendingOf_eq]
    exact if_congr (and_iff_left rfl).symm rfl rfl
  · rw [kept, none, if_neg (by simp)]

theorem resolve_decision (id : JsString) (response : ApprovalResponse) (decidedAt : Throwing JsString)
    (id' : JsString) : (s.resolve id response decidedAt).getDecision id' =
      if id' = id then
        (s.getDecision id).or (decided listPending getDecision s id response decidedAt)
      else s.getDecision id' := by
  rcases s.resolve_cases id response decidedAt with ⟨d, made, undecided, moved⟩ | ⟨none, kept⟩
  · rw [moved, made, undecided, getDecision, Keyed.find_put, getDecision]
    by_cases same : id' = id
    · rw [if_pos same, if_pos same.symm]
      rfl
    · rw [if_neg same, if_neg fun equal => same equal.symm]
  · rw [kept, none, Option.or_none]
    split_ifs with same
    · rw [same]
    · rfl

end MemoryApprovalStore

def memoryApprovalStore : ApprovalStore MemoryApprovalStore where
  start := .empty
  enqueue := MemoryApprovalStore.enqueue
  listPending := MemoryApprovalStore.listPending
  resolve := MemoryApprovalStore.resolve
  getDecision := MemoryApprovalStore.getDecision
  start_pending _ := rfl
  start_decision _ := rfl
  enqueue_pending s item id _ := s.enqueue_pending item id
  enqueue_decision := MemoryApprovalStore.enqueue_decision
  resolve_pending := MemoryApprovalStore.resolve_pending
  resolve_decision := MemoryApprovalStore.resolve_decision

end Vaduno.Approval
