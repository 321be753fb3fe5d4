import Vaduno.Approval.Binding
import Vaduno.Mandate.UseBudget

/-! Where a payment ends up, and what a human's approval or a consumed use of a mandate covers of that.
Both digests name the amount, the currency, the merchant and the rail, and neither names the network
that a payment settles on. -/
namespace Vaduno.Approval
open Ecma Enforce

/-- Two intents that move the same money to the same place on the same network. -/
structure SameDestination (platform : Platform) (a b : PaymentIntent) : Prop extends
    SameMoney platform a b where
  network : a.network = b.network

/-- Two intents with no fingerprint and no consume digest in common. -/
structure Apart (platform : Platform) (a b : PaymentIntent) : Prop where
  fingerprint : ∀ f, approvalFingerprint platform a = .ok f → approvalFingerprint platform b ≠ .ok f
  digest : ∀ d, intentDigest platform a = .ok d → intentDigest platform b ≠ .ok d

/-- One payment, with an amount that can be digested, on two networks. -/
structure Rerouted (platform : Platform) (a b : PaymentIntent) : Prop extends SameMoney platform a b where
  finite : a.amount.amountMinor.isFinite = true
  network : a.network ≠ b.network

section Digests
variable {platform : Platform} {a b : PaymentIntent}

theorem approvalFingerprint_congr (same : SameMoney platform a b) :
    approvalFingerprint platform a = approvalFingerprint platform b := by
  simp only [approvalFingerprint, fingerprintFields, same.amountMinor, same.currency, same.merchant, same.rail]

theorem sameMoney_of_samePayment (same : SamePayment a b) : SameMoney platform a b where
  amountMinor := congrArg Money.amountMinor same.amount
  currency := congrArg (fun amount => platform.toUpperCase amount.currency) same.amount
  merchant := same.merchant
  rail := same.rail

theorem sameDestination_of_sameMoney (same : SameMoney platform a b)
    (finite : a.amount.amountMinor.isFinite = true) (kept : ¬Rerouted platform a b) :
    SameDestination platform a b where
  toSameMoney := same
  network := by
    by_contra other
    exact kept ⟨same, finite, other⟩

/-- The digests tell two destinations apart exactly where more than the network differs. -/
theorem apart_iff (collisionFree : CollisionFree platform) :
    (¬SameDestination platform a b → Apart platform a b) ↔ ¬Rerouted platform a b := by
  constructor
  · intro separate rerouted
    have apart := separate fun same => rerouted.network same.network
    have made : approvalFingerprint platform a = .ok _ := approvalFingerprint_finite rerouted.finite
    exact apart.fingerprint _ made ((approvalFingerprint_congr rerouted.toSameMoney).symm.trans made)
  · intro kept other
    constructor
    · intro f made made'
      have same := sameMoney_of_fingerprint collisionFree made made'
      exact other (sameDestination_of_sameMoney same (finite_of_fingerprint made) kept)
    · intro d made made'
      have same : SameMoney platform a b :=
        sameMoney_of_samePayment (samePayment_of_intentDigest collisionFree made made')
      exact other (sameDestination_of_sameMoney same (finite_of_intentDigest platform made) kept)

end Digests

/-! ### Runs of a queue -/

inductive Turn (platform : Platform)
  /-- A handler is asked about a payment: it enqueues an item under the payment's fingerprint. -/
  | ask (req : HandlerRequest)
  | resolve (intentId : JsString) (response : ApprovalResponse) (decidedAt : Throwing JsString)
  /-- A handler that waits asks once. -/
  | poll (w : Waiting platform) (nowMs : Number)

/-- A queue, and the payments behind its items and its decisions. -/
structure Queue (σ : Type) where
  store : σ
  asked : List PaymentIntent
  pending : JsString → Option PaymentIntent
  decided : JsString → Option PaymentIntent

namespace Queue
variable {platform : Platform} {σ : Type} (store : ApprovalStore σ)

def start : Queue σ := ⟨store.start, [], fun _ => none, fun _ => none⟩

/-- One turn. A payment that has no fingerprint is not enqueued; a decision is for the payment that
was pending. -/
def turn (q : Queue σ) : Turn platform → Option Polled × Queue σ
  | .ask req =>
    match approvalFingerprint platform req.intent with
    | .error _ => (none, q)
    | .ok fingerprint => (none, { q with
        store := store.enqueue q.store (req.pending fingerprint)
        asked := req.intent :: q.asked
        pending := fun id =>
          if store.getDecision q.store req.intent.id = none ∧ id = req.intent.id then some req.intent
          else q.pending id })
  | .resolve id response decidedAt => (none, { q with
      store := store.resolve q.store id response decidedAt
      decided := fun id' =>
        if id' = id ∧ (Approval.decided store.listPending store.getDecision q.store id response decidedAt).isSome
          = true then q.pending id
        else q.decided id' })
  | .poll w nowMs => (some (w.poll (store.getDecision q.store w.intent.id) nowMs), q)

/-- Where a run of the queue comes to. -/
def after (turns : List (Turn platform)) : Queue σ := (Machine.play (turn store) (start store) turns).2

/-- A payment that was asked about under its id, and the fingerprint that was kept for it. -/
structure Behind (platform : Platform) (asked : List PaymentIntent) (id : JsString) (fingerprint : Option JsString)
    (payment : Option PaymentIntent) : Prop where
  known : ∃ a f, payment = some a ∧ a ∈ asked ∧ a.id = id ∧ approvalFingerprint platform a = .ok f ∧
    fingerprint = some f

/-- Items and decisions carry the fingerprint of the payment behind them. -/
structure Traced (platform : Platform) (q : Queue σ) : Prop where
  pending : ∀ id p, pendingOf store.listPending q.store id = some p →
    Behind platform q.asked id p.fingerprint (q.pending id)
  decided : ∀ id d, store.getDecision q.store id = some d → Behind platform q.asked id d.fingerprint (q.decided id)

variable {store} {q : Queue σ}

theorem Behind.later {asked more : List PaymentIntent} {id : JsString} {fingerprint : Option JsString}
    {payment : Option PaymentIntent} (behind : Behind platform asked id fingerprint payment)
    (grows : ∀ a ∈ asked, a ∈ more) : Behind platform more id fingerprint payment := by
  obtain ⟨a, f, held, member, rest⟩ := behind.known
  exact ⟨a, f, held, grows a member, rest⟩

theorem traced_start : Traced store platform (start store) where
  pending id p found := by
    rw [start, store.start_pending] at found
    cases found
  decided id d found := by
    rw [start, store.start_decision] at found
    cases found

theorem Traced.ask (traced : Traced store platform q) (req : HandlerRequest) :
    Traced store platform (turn store q (.ask req : Turn platform)).2 := by
  rw [turn]
  split
  · exact traced
  · rename_i f made
    have finite : (req.pending f).amount.amountMinor.isFinite = true := finite_of_fingerprint made
    have grows : ∀ a ∈ q.asked, a ∈ req.intent :: q.asked := fun a => List.mem_cons_of_mem _
    constructor
    · intro id p found
      change pendingOf store.listPending (store.enqueue q.store _) id = some p at found
      rw [store.enqueue_pending _ _ _ finite] at found
      change Behind platform _ id p.fingerprint
        (if store.getDecision q.store (req.pending f).intentId = none ∧ id = (req.pending f).intentId then
          some req.intent else q.pending id)
      split_ifs at found ⊢ with own
      · cases found
        exact ⟨_, f, rfl, List.mem_cons_self, own.2.symm, made, rfl⟩
      · exact (traced.pending id p found).later grows
    · intro id d found
      change store.getDecision (store.enqueue q.store _) id = some d at found
      rw [store.enqueue_decision] at found
      exact (traced.decided id d found).later grows

theorem Traced.resolve (traced : Traced store platform q) (id : JsString) (response : ApprovalResponse)
    (decidedAt : Throwing JsString) :
    Traced store platform (turn store q (.resolve id response decidedAt : Turn platform)).2 := by
  constructor
  · intro id' p found
    change pendingOf store.listPending (store.resolve q.store id response decidedAt) id' = some p at found
    rw [store.resolve_pending] at found
    split_ifs at found
    exact traced.pending id' p found
  · intro id' d found
    change store.getDecision (store.resolve q.store id response decidedAt) id' = some d at found
    rw [store.resolve_decision] at found
    change Behind platform _ id' d.fingerprint (if _ then q.pending id else q.decided id')
    cases made : Approval.decided store.listPending store.getDecision q.store id response decidedAt with
    | none =>
      rw [made, Option.or_none] at found
      rw [if_neg (by simp)]
      split_ifs at found with same
      · subst same
        exact traced.decided _ d found
      · exact traced.decided id' d found
    | some decision =>
      by_cases same : id' = id
      · subst same
        obtain ⟨undecided, p, t, pending, -, rfl⟩ := decided_some made
        rw [if_pos rfl, undecided, made] at found
        cases found
        rw [if_pos ⟨rfl, rfl⟩]
        exact traced.pending id' p pending
      · rw [if_neg same] at found
        rw [if_neg fun both => same both.1]
        exact traced.decided id' d found

theorem traced_after (turns : List (Turn platform)) : Traced store platform (after store turns) := by
  have kept : ∀ q (call : Turn platform), Traced store platform q → True → Traced store platform (turn store q call).2 := by
    intro q call traced _
    cases call with
    | ask req => exact traced.ask req
    | resolve id response decidedAt => exact traced.resolve id response decidedAt
    | poll w nowMs => exact traced
  exact Machine.play_invariant kept traced_start (Machine.Permitted.always (fun _ _ => trivial) _ _)

/-- The decision on file under an intent's id was made for a payment that goes where the intent goes. -/
def Covers (platform : Platform) (q : Queue σ) (intent : PaymentIntent) : Prop :=
  ∃ a, q.decided intent.id = some a ∧ SameDestination platform a intent

/-- A handler that answers approved was answered for a payment of the same money, which was asked about
under this id. -/
theorem Traced.covers (traced : Traced store platform q) (collisionFree : CollisionFree platform)
    {w : Waiting platform} {nowMs : Number} {response : ApprovalResponse}
    (answered : (turn store q (.poll w nowMs)).1 = some (.answered response)) (approved : response.approved = true)
    (kept : ∀ a ∈ q.asked, a.id = w.intent.id → ¬Rerouted platform a w.intent) : Covers platform q w.intent := by
  obtain ⟨d, found, -, matched⟩ := Waiting.poll_approved (Option.some.inj answered) approved
  obtain ⟨a, f, held, asked, own, made, given⟩ := (traced.decided _ d found).known
  have one : f = w.fingerprint := Option.some.inj (given.symm.trans matched)
  have same := sameMoney_of_fingerprint collisionFree (one ▸ made) w.fingerprinted
  exact ⟨a, held, sameDestination_of_sameMoney same (finite_of_fingerprint made) (kept a asked own)⟩

end Queue

open Async Mandate in
/-- The two digests separate what goes to different places exactly where it is not one payment on two
networks. In every run of a queue, and of managers over one store, an approval that is answered and a
replay that matches cover only what goes where the first payment went, unless the later one is that
payment on another network. -/
theorem destinations_bound {platform : Platform} (collisionFree : CollisionFree platform) :
    (∀ a b, (¬SameDestination platform a b → Apart platform a b) ↔ ¬Rerouted platform a b) ∧
    (∀ (σ : Type) (store : ApprovalStore σ) (turns : List (Turn platform)) (w : Waiting platform) nowMs response,
      (Queue.turn store (Queue.after store turns) (.poll w nowMs)).1 = some (.answered response) →
      response.approved = true →
      (∀ a ∈ (Queue.after store turns).asked, a.id = w.intent.id → ¬Rerouted platform a w.intent) →
      Queue.Covers platform (Queue.after store turns) w.intent) ∧
    (∀ (σ ι : Type) [DecidableEq ι] (store : ConsumeStore platform σ) (calls : ι → Mandate.Call) start events pool,
      Run (StoreAnswers store) (Shared platform calls start) events pool →
      ∀ i j manager mandateId intent intent' claim, calls i = .consume manager mandateId intent →
        pool.threads i = .done (.ok (some (.replayed claim true))) →
        ConsumedBy calls pool j mandateId intent.id intent' → ¬Rerouted platform intent intent' →
        SameDestination platform intent intent') := by
  refine ⟨fun a b => apart_iff collisionFree, ?_, ?_⟩
  · intro σ store turns w nowMs response answered approved kept
    exact (Queue.traced_after turns).covers collisionFree answered approved kept
  · intro σ ι _ store calls start events pool run i j manager mandateId intent intent' claim call settled
      consumed kept
    have same := (replay_matches_iff collisionFree run call settled consumed).mp rfl
    obtain ⟨manager', check, use, call', -, settled'⟩ := consumed
    obtain ⟨phases, -, meets⟩ := consistent_of_run run
    obtain ⟨own, -, -, -, digested⟩ := ConsumedBy.won ⟨manager', check, use, call', rfl, settled'⟩ (meets j)
    have finite : intent.amount.amountMinor.isFinite = true := by
      rw [same.amount]
      exact finite_of_intentDigest platform digested
    exact sameDestination_of_sameMoney (sameMoney_of_samePayment same) finite kept


namespace Destination

/-- One payment on two networks, and a larger one. -/
def sepolia : PaymentIntent := { Vaduno.Sample.intent "i-1" with network := some "eip155:84532" }
def mainnet : PaymentIntent := { sepolia with network := some "eip155:1" }
def larger : PaymentIntent := { sepolia with amount := ⟨90000, "USD"⟩ }

theorem sepolia_finite : sepolia.amount.amountMinor.isFinite = true := by decide +kernel

theorem sepolia_rerouted : Rerouted Vaduno.Sample.platform sepolia mainnet where
  toSameMoney := ⟨rfl, rfl, rfl, rfl⟩
  finite := sepolia_finite
  network := by decide

def waiting : Waiting Vaduno.Sample.platform where
  intent := mainnet
  fingerprint := _
  deadline := 1780000300000
  fingerprinted := @approvalFingerprint_finite Vaduno.Sample.platform mainnet sepolia_finite

def yes : ApprovalResponse := ⟨true, some "prem", none⟩

/-- A human approves the payment on one network. -/
def approved : Queue MemoryApprovalStore :=
  @Queue.after Vaduno.Sample.platform _ memoryApprovalStore
    [.ask ⟨sepolia, [], "2026-05-28T20:26:40.000Z"⟩, .resolve "i-1" yes (.ok "2026-05-28T20:27:00.000Z")]

theorem approved_played : waiting.poll (memoryApprovalStore.getDecision approved.store mainnet.id) 1780000200000 =
    .answered yes ∧ (approved.decided mainnet.id).map PaymentIntent.network = some sepolia.network ∧
    sepolia.network ≠ mainnet.network := by
  decide +kernel

end Destination

/-- The digests of the two are the same, and the approval that was given for the one answers the handler
that asks about the other. -/
theorem other_network_covered :
    ¬(¬SameDestination Vaduno.Sample.platform Destination.sepolia Destination.mainnet →
      Apart Vaduno.Sample.platform Destination.sepolia Destination.mainnet) ∧
    (Queue.turn memoryApprovalStore Destination.approved (.poll Destination.waiting 1780000200000)).1 =
      some (.answered Destination.yes) ∧
    ¬Queue.Covers Vaduno.Sample.platform Destination.approved Destination.mainnet := by
  obtain ⟨answered, payment, apart⟩ := Destination.approved_played
  refine ⟨?_, congrArg some answered, ?_⟩
  · intro separate
    exact (apart_iff Vaduno.Sample.platform_collisionFree).mp separate Destination.sepolia_rerouted
  · rintro ⟨a, held, same⟩
    rw [held] at payment
    exact apart ((Option.some.inj payment).symm.trans same.network)

theorem larger_apart : Apart Vaduno.Sample.platform Destination.sepolia Destination.larger := by
  have amounts : Destination.sepolia.amount.amountMinor ≠ Destination.larger.amount.amountMinor := by
    decide +kernel
  refine ((destinations_bound Vaduno.Sample.platform_collisionFree).1 Destination.sepolia Destination.larger).mpr
    ?_ ?_
  · exact fun rerouted => amounts rerouted.amountMinor
  · exact fun same => amounts same.amountMinor

end Vaduno.Approval
