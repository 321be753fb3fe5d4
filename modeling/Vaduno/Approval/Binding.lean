import Vaduno.Approval.FileStore
import Vaduno.Machine
import Vaduno.Sample

/-! What a human was shown, and what was approved. A response carries no fingerprint, so it decides
whatever is pending when it arrives; the run is watched for what the last listing showed under each
id, and whether something else has been enqueued there since. -/
namespace Vaduno.Approval
open Ecma Enforce

inductive Call (platform : Platform)
  | enqueue (item : PendingApproval)
  | listPending
  | resolve (intentId : JsString) (response : ApprovalResponse) (decidedAt : Throwing JsString)
  /-- A handler that waits asks once. -/
  | poll (w : Waiting platform) (nowMs : Number)

inductive Answer
  | settled
  | listed (items : List PendingApproval)
  | polled (polled : Polled)

/-- The view in which a decision was made. -/
structure Sight where
  /-- The item of the last listing before it. -/
  shown : Option PendingApproval
  /-- An item with other money fields has been enqueued since that listing. -/
  replaced : Bool
  approved : Bool

/-- A queue, and what was asked of it and shown of it. -/
structure Watched (σ : Type) where
  store : σ
  requested : List PendingApproval
  shown : JsString → Option PendingApproval
  replaced : JsString → Bool
  sights : JsString → Option Sight

/-- The same money fields, as far as an item has them; the fingerprint covers the rail. -/
def PendingApproval.money (item : PendingApproval) : Money × MerchantRef × Option JsString :=
  (item.amount, item.merchant, item.fingerprint)

instance : DecidableEq Money := fun a b =>
  decidable_of_iff (a.amountMinor = b.amountMinor ∧ a.currency = b.currency) (by
    cases a
    cases b
    simp)

instance : DecidableEq MerchantRef := fun a b =>
  decidable_of_iff (a.id = b.id ∧ a.url = b.url) (by
    cases a
    cases b
    simp)

section Run
variable {platform : Platform} {σ : Type} (store : ApprovalStore σ)

def start : Watched σ where
  store := store.start
  requested := []
  shown _ := none
  replaced _ := false
  sights _ := none

/-- One call on the queue. -/
def callStep (s : σ) : Call platform → Answer × σ
  | .enqueue item => (.settled, store.enqueue s item)
  | .listPending => (.listed (store.listPending s), s)
  | .resolve id response decidedAt => (.settled, store.resolve s id response decidedAt)
  | .poll w nowMs => (.polled (w.poll (store.getDecision s w.intent.id) nowMs), s)

/-- What the call means for whoever watches. -/
def watch (s : Watched σ) (call : Call platform) : Watched σ :=
  let next := (callStep store s.store call).2
  match call with
  | .enqueue item => { s with
      store := next
      requested := item :: s.requested
      replaced := fun id => s.replaced id ||
        (decide (id = item.intentId) && (store.getDecision s.store id).isNone &&
          decide ((s.shown id).map PendingApproval.money ≠ some item.money)) }
  | .listPending => { s with
      store := next
      shown := pendingOf store.listPending s.store
      replaced := fun _ => false }
  | .resolve id response decidedAt => { s with
      store := next
      sights := fun id' =>
        if id' = id ∧ (decided store.listPending store.getDecision s.store id response
          decidedAt).isSome = true then some ⟨s.shown id, s.replaced id, response.approved⟩
        else s.sights id' }
  | .poll .. => { s with store := next }

def step (s : Watched σ) (call : Call platform) : Answer × Watched σ :=
  ((callStep store s.store call).1, watch store s call)

/-- The item that the handler enqueues for some request. -/
def Presents (platform : Platform) (item : PendingApproval) (intent : PaymentIntent) : Prop :=
  ∃ req : HandlerRequest, req.intent = intent ∧
    ∃ fingerprint, approvalFingerprint platform intent = .ok fingerprint ∧
      item = req.pending fingerprint

/-- An item that shows exactly the money fields of an intent, under its id. -/
def Shows (platform : Platform) (item : PendingApproval) (intent : PaymentIntent) : Prop :=
  item.intentId = intent.id ∧ item.amount = intent.amount ∧ item.merchant = intent.merchant ∧
    ∃ shown, Presents platform item shown ∧ shown.rail = intent.rail

/-- The calls for which an approval is bound to what was shown. -/
def Permits (s : Watched σ) : Call platform → Prop
  /- only the handler enqueues -/
  | .enqueue item => ∃ intent, Presents platform item intent
  /- a positive response decides what the last listing showed under the id, not replaced since -/
  | .resolve id response decidedAt => response.approved = true →
    (decided store.listPending store.getDecision s.store id response decidedAt).isSome = true →
      (s.shown id).isSome = true ∧ s.replaced id = false
  /- one id spells one currency one way -/
  | .poll w _ => ∀ item ∈ s.requested, item.intentId = w.intent.id →
    platform.toUpperCase item.amount.currency = platform.toUpperCase w.intent.amount.currency →
      item.amount.currency = w.intent.amount.currency
  | .listPending => True

end Run

/-! ### What a run keeps -/

section Kept
variable {platform : Platform} {σ : Type} {store : ApprovalStore σ}

/-- A response that decides something decides what is pending. -/
theorem decided_some {s : σ} {id : JsString} {response : ApprovalResponse}
    {decidedAt : Throwing JsString} {d : ApprovalDecision}
    (made : decided store.listPending store.getDecision s id response decidedAt = some d) :
    store.getDecision s id = none ∧ ∃ p t, pendingOf store.listPending s id = some p ∧
      decidedAt = .ok t ∧ d = { response with decidedAt := t, fingerprint := p.fingerprint } := by
  unfold decided at made
  split at made
  · rename_i p t undecided pending
    exact ⟨undecided, p, t, pending, rfl, (Option.some.inj made).symm⟩
  · cases made

theorem pendingOf_id {s : σ} {id : JsString} {p : PendingApproval}
    (pending : pendingOf store.listPending s id = some p) : p.intentId = id := by
  simpa using List.find?_some pending

theorem Presents.finite {item : PendingApproval} {intent : PaymentIntent}
    (presents : Presents platform item intent) : item.amount.amountMinor.isFinite = true := by
  obtain ⟨req, rfl, fingerprint, made, rfl⟩ := presents
  exact finite_of_fingerprint made

/-- An item that has been asked for, as a handler asks. -/
structure Asked (platform : Platform) (requested : List PendingApproval) (id : JsString)
    (item : PendingApproval) : Prop where
  own : item.intentId = id
  member : item ∈ requested
  presents : ∃ intent, Presents platform item intent

variable (platform store)

structure Kept (s : Watched σ) : Prop where
  pending : ∀ id p, pendingOf store.listPending s.store id = some p → Asked platform s.requested id p
  shown : ∀ id q, s.shown id = some q → Asked platform s.requested id q
  /-- What is pending is what was shown, where nothing else has come in between. -/
  current : ∀ id q p, s.shown id = some q → s.replaced id = false →
    pendingOf store.listPending s.store id = some p → p.money = q.money
  /-- A positive decision was made in view of an item with its fingerprint. -/
  sights : ∀ id d, store.getDecision s.store id = some d → d.approved = true →
    ∃ sight q, s.sights id = some sight ∧ sight.approved = true ∧ sight.replaced = false ∧
      sight.shown = some q ∧ Asked platform s.requested id q ∧ d.fingerprint = q.fingerprint

variable {platform store}

theorem kept_start : Kept platform store (start store) where
  pending id p found := by
    rw [start, store.start_pending] at found
    cases found
  shown id q found := by cases found
  current id q p found := by cases found
  sights id d found := by
    rw [start, store.start_decision] at found
    cases found

theorem Asked.later {requested more : List PendingApproval} {id : JsString} {item : PendingApproval}
    (asked : Asked platform requested id item) (grows : ∀ q ∈ requested, q ∈ more) :
    Asked platform more id item :=
  ⟨asked.own, grows item asked.member, asked.presents⟩

theorem Kept.enqueue {s : Watched σ} (kept : Kept platform store s) {item : PendingApproval}
    (asks : ∃ intent, Presents platform item intent) :
    Kept platform store (watch store s (.enqueue item : Call platform)) := by
  obtain ⟨intent, presents⟩ := asks
  have moved := fun id => store.enqueue_pending s.store item id presents.finite
  have grows : ∀ q ∈ s.requested, q ∈ item :: s.requested := fun q => List.mem_cons_of_mem item
  constructor
  · intro id p found
    change pendingOf store.listPending (store.enqueue s.store item) id = some p at found
    rw [moved] at found
    split_ifs at found with own
    · cases found
      exact ⟨own.2.symm, List.mem_cons_self, intent, presents⟩
    · exact (kept.pending id p found).later grows
  · intro id q found
    exact (kept.shown id q found).later grows
  · intro id q p found fresh after
    change s.shown id = some q at found
    change (s.replaced id || _) = false at fresh
    change pendingOf store.listPending (store.enqueue s.store item) id = some p at after
    rw [Bool.or_eq_false_iff] at fresh
    rw [moved] at after
    split_ifs at after with own
    · cases after
      obtain ⟨undecided, rfl⟩ := own
      have same := fresh.2
      rw [undecided, found] at same
      simp only [decide_true, Option.isNone_none, Option.map_some, Bool.true_and, ne_eq,
        Option.some.injEq, decide_not, Bool.not_eq_false', decide_eq_true_eq] at same
      exact same.symm
    · exact kept.current id q p found fresh.1 after
  · intro id d found approved
    change store.getDecision (store.enqueue s.store item) id = some d at found
    rw [store.enqueue_decision] at found
    obtain ⟨sight, q, seen, positive, fresh, shown, asked, covers⟩ := kept.sights id d found approved
    exact ⟨sight, q, seen, positive, fresh, shown, asked.later grows, covers⟩

theorem Kept.listPending {s : Watched σ} (kept : Kept platform store s) :
    Kept platform store (watch store s (.listPending : Call platform)) where
  pending := kept.pending
  shown := kept.pending
  current id q p found _ after := by
    change pendingOf store.listPending s.store id = some q at found
    change pendingOf store.listPending s.store id = some p at after
    rw [found] at after
    cases after
    rfl
  sights := kept.sights

theorem Kept.resolve {s : Watched σ} (kept : Kept platform store s) {id : JsString}
    {response : ApprovalResponse} {decidedAt : Throwing JsString}
    (seen : response.approved = true →
      (decided store.listPending store.getDecision s.store id response decidedAt).isSome = true →
        (s.shown id).isSome = true ∧ s.replaced id = false) :
    Kept platform store (watch store s (.resolve id response decidedAt : Call platform)) := by
  have moved := store.resolve_pending s.store id response decidedAt
  have left : ∀ id' p, pendingOf store.listPending (store.resolve s.store id response decidedAt) id' =
      some p → pendingOf store.listPending s.store id' = some p := by
    intro id' p found
    rw [moved] at found
    split_ifs at found
    exact found
  refine ⟨fun id' p found => kept.pending id' p (left id' p found), kept.shown,
    fun id' q p found fresh after => kept.current id' q p found fresh (left id' p after), ?_⟩
  intro id' d found approved
  change store.getDecision (store.resolve s.store id response decidedAt) id' = some d at found
  rw [store.resolve_decision] at found
  change ∃ sight q, (if id' = id ∧ (decided store.listPending store.getDecision s.store id response
    decidedAt).isSome = true then some _ else s.sights id') = some sight ∧ _
  cases made : decided store.listPending store.getDecision s.store id response decidedAt with
  | none =>
    rw [if_neg (by simp)]
    refine kept.sights id' d ?_ approved
    rw [made, Option.or_none] at found
    split_ifs at found with same
    · rw [same]
      exact found
    · exact found
  | some decision =>
    by_cases same : id' = id
    · subst same
      obtain ⟨undecided, p, t, pending, rfl, rfl⟩ := decided_some made
      rw [if_pos rfl, undecided, made] at found
      cases found
      obtain ⟨some, fresh⟩ := seen approved (by rw [made]; rfl)
      obtain ⟨q, shown⟩ := Option.isSome_iff_exists.mp some
      have money := kept.current id' q p shown fresh pending
      rw [if_pos ⟨rfl, rfl⟩]
      exact ⟨_, q, rfl, approved, fresh, shown, kept.shown id' q shown,
        congrArg (fun money => money.2.2) money⟩
    · rw [if_neg same] at found
      rw [if_neg fun both => same both.1]
      exact kept.sights id' d found approved

theorem Kept.step {s : Watched σ} {call : Call platform} (kept : Kept platform store s)
    (permits : Permits store s call) : Kept platform store (step store s call).2 := by
  cases call with
  | enqueue item => exact kept.enqueue permits
  | listPending => exact kept.listPending
  | resolve id response decidedAt => exact kept.resolve permits
  | poll w nowMs => exact ⟨kept.pending, kept.shown, kept.current, kept.sights⟩

/-- The decision on file was a positive one, made in view of a listing that showed this payment under
its id, and nothing else was put in its place between that listing and the response. -/
def Viewed (platform : Platform) (s : Watched σ) (intent : PaymentIntent) : Prop :=
  ∃ sight, s.sights intent.id = some sight ∧ sight.approved = true ∧ sight.replaced = false ∧
    ∃ item, sight.shown = some item ∧ Shows platform item intent

theorem Kept.viewed {s : Watched σ} (kept : Kept platform store s)
    (collisionFree : CollisionFree platform) {w : Waiting platform} {nowMs : Number}
    {response : ApprovalResponse} (permits : Permits store s (.poll w nowMs))
    (answered : w.poll (store.getDecision s.store w.intent.id) nowMs = .answered response)
    (approved : response.approved = true) : Viewed platform s w.intent := by
  obtain ⟨d, found, positive, covers⟩ := Waiting.poll_approved answered approved
  obtain ⟨sight, q, seen, given, fresh, shown, asked, matched⟩ := kept.sights _ d found positive
  obtain ⟨intent, presents⟩ := asked.presents
  refine ⟨sight, seen, given, fresh, q, shown, ?_⟩
  have spelt := permits q asked.member asked.own
  obtain ⟨req, rfl, fingerprint, made, rfl⟩ := presents
  have one : fingerprint = w.fingerprint := Option.some.inj (matched.symm.trans covers)
  have same := sameMoney_of_fingerprint collisionFree (one ▸ made) w.fingerprinted
  have amount : req.intent.amount = w.intent.amount := by
    have amountMinor := same.amountMinor
    have currency := spelt same.currency
    change req.intent.amount.currency = _ at currency
    cases left : req.intent.amount
    cases right : w.intent.amount
    rw [left, right] at amountMinor currency
    rw [Money.mk.injEq]
    exact ⟨amountMinor, currency⟩
  exact ⟨asked.own, amount, same.merchant, req.intent, ⟨req, rfl, fingerprint, made, rfl⟩, same.rail⟩

end Kept

/-! ### Decisions stay -/

section Decisions
variable {platform : Platform} {σ : Type} (store : ApprovalStore σ)

/-- One call makes a decision only of what is pending under an id without one, and overwrites none. -/
theorem decision_step (s : σ) (call : Call platform) (id : JsString) :
    store.getDecision (callStep store s call).2 id = store.getDecision s id ∨
      store.getDecision s id = none ∧ ∃ response t p, call = .resolve id response (.ok t) ∧
        pendingOf store.listPending s id = some p ∧
        store.getDecision (callStep store s call).2 id =
          some { response with decidedAt := t, fingerprint := p.fingerprint } := by
  cases call with
  | enqueue item => exact .inl (store.enqueue_decision s item id)
  | listPending => exact .inl rfl
  | poll w nowMs => exact .inl rfl
  | resolve id' response decidedAt =>
    have moved := store.resolve_decision s id' response decidedAt id
    by_cases same : id = id'
    · subst same
      rw [if_pos rfl] at moved
      cases made : decided store.listPending store.getDecision s id response decidedAt with
      | none =>
        rw [made, Option.or_none] at moved
        exact .inl moved
      | some d =>
        obtain ⟨undecided, p, t, pending, rfl, rfl⟩ := decided_some made
        rw [made, undecided, Option.none_or] at moved
        exact .inr ⟨undecided, response, t, p, rfl, pending, moved⟩
    · rw [if_neg same] at moved
      exact .inl moved

theorem decision_kept (s : Watched σ) (calls : List (Call platform)) {id : JsString}
    {d : ApprovalDecision} (found : store.getDecision s.store id = some d) :
    store.getDecision (Machine.play (step store) s calls).2.store id = some d := by
  have permitted : Machine.Permitted (step store) (fun _ _ => True) s calls :=
    Machine.Permitted.always (fun _ _ => trivial) s calls
  refine Machine.play_invariant (I := fun s => store.getDecision s.store id = some d)
    (fun s call found _ => ?_) found permitted
  have stored : (step store s call).2.store = (callStep store s.store call).2 := by
    cases call <;> rfl
  rcases decision_step store s.store call id with same | ⟨undecided, -⟩
  · rw [stored, same, found]
  · rw [found] at undecided
    cases undecided

end Decisions

/-! ### Whole runs -/

section Runs
variable {platform : Platform} {σ : Type} (store : ApprovalStore σ)

/-- Where a run comes to. -/
def after (calls : List (Call platform)) : Watched σ := (Machine.play (step store) (start store) calls).2

/-- In a run whose calls are permitted, an approval answers what was shown. In every run, a decision
stays, and is made only of what is pending. -/
structure Bound (calls : List (Call platform)) : Prop where
  viewed : Machine.Permitted (step store) (Permits store) (start store) calls →
    ∀ (w : Waiting platform) nowMs response, Permits store (after store calls) (.poll w nowMs) →
      (step store (after store calls) (.poll w nowMs)).1 = .polled (.answered response) →
        response.approved = true → Viewed platform (after store calls) w.intent
  kept : ∀ id d, store.getDecision (after store calls).store id = some d →
    ∀ more : List (Call platform),
      store.getDecision (Machine.play (step store) (after store calls) more).2.store id = some d
  pending : ∀ (call : Call platform) id d, store.getDecision (after store calls).store id = none →
    store.getDecision (callStep store (after store calls).store call).2 id = some d →
      ∃ response t p, call = .resolve id response (.ok t) ∧
        pendingOf store.listPending (after store calls).store id = some p ∧
        d = { response with decidedAt := t, fingerprint := p.fingerprint }

theorem ApprovalStore.bound (collisionFree : CollisionFree platform) (calls : List (Call platform)) :
    Bound store calls := by
  constructor
  · intro permitted w nowMs response permits answered approved
    have kept : Kept platform store (after store calls) :=
      Machine.play_invariant (fun _ _ kept permits => kept.step permits) kept_start permitted
    exact kept.viewed collisionFree permits (Answer.polled.inj answered) approved
  · intro id d found more
    exact decision_kept store _ more found
  · intro call id d undecided made
    rcases decision_step store _ call id with same | ⟨-, response, t, p, resolves, pending, written⟩
    · rw [same, undecided] at made
      cases made
    · rw [written] at made
      exact ⟨response, t, p, resolves, pending, (Option.some.inj made).symm⟩

/-- Both queues bind an approval to what was shown. -/
theorem approvals_bound_to_shown (collisionFree : CollisionFree platform) (unreadable : Thrown)
    (calls : List (Call platform)) :
    Bound memoryApprovalStore calls ∧ Bound (fileApprovalStore unreadable) calls :=
  ⟨memoryApprovalStore.bound collisionFree calls, (fileApprovalStore unreadable).bound collisionFree calls⟩

end Runs

namespace Sample

def platform : Platform := Vaduno.Sample.platform

def shown : PaymentIntent := Vaduno.Sample.intent "i-1"

/-- Another payment under the same id. -/
def larger : PaymentIntent := { shown with amount := ⟨90000, "USD"⟩ }

def fingerprintOf (intent : PaymentIntent) : JsString :=
  "~" ++ ("vaduno-approval-fingerprint/v1\n" ++ fingerprintText platform intent)

theorem fingerprinted : ∀ intent ∈ [shown, larger],
    approvalFingerprint platform intent = .ok (fingerprintOf intent) := by
  intro intent member
  have marked : ∀ intent ∈ [shown, larger], intent.amount.amountMinor.isFinite = true ∧
      platform.sha256Hex ("vaduno-approval-fingerprint/v1\n" ++ fingerprintText platform intent) =
        fingerprintOf intent := by decide +kernel
  obtain ⟨finite, hashed⟩ := marked intent member
  rw [approvalFingerprint_finite finite, hashed]

def item (intent : PaymentIntent) : PendingApproval :=
  HandlerRequest.pending ⟨intent, [⟨"APPROVAL_REQUIRED", "above the limit"⟩], "2026-05-28T20:26:40.000Z"⟩
    (fingerprintOf intent)

theorem presents : ∀ intent ∈ [shown, larger], Presents platform (item intent) intent := by
  intro intent member
  exact ⟨⟨intent, _, _⟩, rfl, _, fingerprinted intent member, rfl⟩

def waiting (intent : PaymentIntent) (member : intent ∈ [shown, larger]) : Waiting platform where
  intent := intent
  fingerprint := fingerprintOf intent
  deadline := 1780000300000
  fingerprinted := fingerprinted intent member

def yes : ApprovalResponse := ⟨true, some "prem", none⟩

/-- Every item is enqueued by its handler, and the human answers once, after a listing. -/
def calls (items : List PendingApproval) : List (Call platform) :=
  [.enqueue (item shown), .listPending] ++ items.map .enqueue ++
    [.resolve "i-1" yes (.ok "2026-05-28T20:27:00.000Z")]

/-- The two runs, as their handlers find them. -/
theorem played :
    ((after memoryApprovalStore ((calls []).take 2)).shown "i-1").isSome = true ∧
    (after memoryApprovalStore ((calls []).take 2)).replaced "i-1" = false ∧
    (after memoryApprovalStore (calls [])).requested.map PendingApproval.amount = [shown.amount] ∧
    (waiting shown (by simp)).poll ((after memoryApprovalStore (calls [])).store.getDecision "i-1")
      1780000200000 = .answered yes ∧
    (waiting larger (by simp)).poll
      ((after memoryApprovalStore (calls [item larger])).store.getDecision "i-1") 1780000200000 =
        .answered yes ∧
    ((after memoryApprovalStore (calls [item larger])).sights "i-1").map Sight.replaced =
      some true := by
  decide +kernel

end Sample

theorem shown_payment_viewed :
    Viewed Sample.platform (after memoryApprovalStore (Sample.calls [])) Sample.shown := by
  have collisionFree : CollisionFree Sample.platform := Vaduno.Sample.platform_collisionFree
  obtain ⟨listed, fresh, asked, answered, -⟩ := Sample.played
  have permitted : Machine.Permitted (step memoryApprovalStore) (Permits memoryApprovalStore)
      (start memoryApprovalStore) (Sample.calls []) :=
    ⟨⟨Sample.shown, Sample.presents _ (by simp)⟩, trivial, fun _ _ => ⟨listed, fresh⟩, trivial⟩
  refine (approvals_bound_to_shown collisionFree .typeError (Sample.calls [])).1.viewed permitted
    (Sample.waiting Sample.shown (by simp)) 1780000200000 Sample.yes ?_
    (congrArg Answer.polled answered) rfl
  intro item member _ _
  have amount : item.amount ∈ [Sample.shown.amount] := asked ▸ List.mem_map_of_mem member
  rw [List.mem_singleton.mp amount]
  rfl

/-- Both payments are asked for as a handler asks, the human is shown the smaller one, and the larger
one takes its place before the answer: the answer approves the larger one. -/
theorem unseen_payment_approved :
    (∀ item, Call.enqueue item ∈ Sample.calls [Sample.item Sample.larger] →
      ∃ intent, Presents Sample.platform item intent) ∧
    (step memoryApprovalStore (after memoryApprovalStore (Sample.calls [Sample.item Sample.larger]))
      (.poll (Sample.waiting Sample.larger (by simp)) 1780000200000)).1 =
        .polled (.answered Sample.yes) ∧
    ¬Viewed Sample.platform (after memoryApprovalStore (Sample.calls [Sample.item Sample.larger]))
      Sample.larger := by
  obtain ⟨-, -, -, -, answered, replaced⟩ := Sample.played
  refine ⟨fun item member => ?_, congrArg Answer.polled answered, ?_⟩
  · simp only [Sample.calls, List.map_cons, List.map_nil, List.cons_append, List.nil_append,
      List.mem_cons, Call.enqueue.injEq, reduceCtorEq, List.not_mem_nil, or_false, false_or] at member
    rcases member with rfl | rfl
    · exact ⟨_, Sample.presents _ (by simp)⟩
    · exact ⟨_, Sample.presents _ (by simp)⟩
  · rintro ⟨sight, seen, -, fresh, -⟩
    rw [show Sample.larger.id = "i-1" from rfl] at seen
    rw [seen, Option.map_some, fresh] at replaced
    cases replaced

end Vaduno.Approval
