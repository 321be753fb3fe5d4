import Vaduno.Guard.Launch
import Vaduno.Guard.Rails
import Vaduno.Stripe.Handler

/-! Any number of deliveries, in any number of processes that share a limiter and a store of decisions: how the parts of
one are answered, and what each part keeps to whatever it is answered. -/
namespace Vaduno.Stripe
open Ecma Enforce Policy Guard Async

structure Delivery where
  /-- The process it comes to, which has its own decisions in flight. -/
  process : ℕ
  /-- What the verification of its signature comes to. -/
  event : Throwing StripeEvent

/-- What is there of one delivery besides its handler. -/
structure Cell where
  armed : Bool
  cleared : Bool
  expired : Bool
  /-- What the guard is called with. -/
  intent : Option StripeIntent
  /-- What the race of the guard's call against the deadline has come to. -/
  raced : Option (Option GuardResult)
  /-- The promise of the decision. -/
  answer : Option (Throwing StripeHandlerResponse)

def Cell.fresh : Cell := ⟨false, false, false, none, none, none⟩

/-- Whoever comes first in a race decides it. -/
def Cell.race (c : Cell) (result : Option GuardResult) : Cell :=
  { c with raced := c.raced.orElse fun _ => some result }

structure World where
  limiter : MemorySpendLimiter
  /-- Every record that was ever handed to the store. -/
  records : JsString → List DecisionRecord
  inflight : ℕ → JsString → Option ℕ
  cells : ℕ → Cell

namespace World

def start (l : MemorySpendLimiter) : World := ⟨l, fun _ => [], fun _ _ => none, fun _ => .fresh⟩

def update (w : World) (n : ℕ) (f : Cell → Cell) : World :=
  { w with cells := Function.update w.cells n (f (w.cells n)) }

def setInflight (w : World) (process : ℕ) (authId : JsString) (delivery : Option ℕ) : World :=
  let own := Function.update (w.inflight process) authId delivery
  { w with inflight := Function.update w.inflight process own }

def record (w : World) (authId : JsString) (record : DecisionRecord) : World :=
  { w with records := Function.update w.records authId (record :: w.records authId) }

end World

/-- A delivery has three parts that go on by themselves. -/
inductive Part
  | handler
  | execution
  | timer
  deriving DecidableEq

/-- The executor that the handler hands to the guard. -/
def RunsExecutor (expired : Bool) : (op : Op) → op.Answer → Prop
  | .runExecutor _, outcome => outcome = executor expired
  | _, _ => True

section System
variable (platform : Platform) (options : ℕ → StripeAuthorizationHandlerOptions) (deliveries : ℕ → Delivery)

/-- How one delivery's parts are answered. A store answers what was written for the id, earlier or later, or nothing; a
timer can fire from when it is armed until it is cleared, and fires into a race that goes on. -/
def Answers : Async.Answers StripeOp.Answer World (Part × ℕ)
  | w, i, .guard op, ans, w' => ∃ l, LimiterAnswers w.limiter i.2 op ans l ∧
    RunsExecutor (w.cells i.2).expired op ans ∧ w' = { w with limiter := l }
  | w, i, .armDeadline, _, w' => w' = w.update i.2 fun c => { c with armed := true }
  | w, i, .clearDeadline, _, w' => w' = w.update i.2 fun c => { c with cleared := true }
  | w, _, .readStore authId, ans, w' => w' = w ∧ ∀ record, ans = some record → record ∈ w.records authId
  | w, i, .joinInflight authId, ans, w' => ans = w.inflight (deliveries i.2).process authId ∧
    w' = if ans.isSome then w else w.setInflight (deliveries i.2).process authId (some i.2)
  | w, _, .existing delivery, ans, w' => w' = w ∧ (w.cells delivery).answer = some ans
  | w, i, .execute intent, _, w' => w' = w.update i.2 fun c =>
    if c.expired then { c with intent := some intent }.race none else { c with intent := some intent }
  | w, i, .race, ans, w' => w' = w ∧ (w.cells i.2).raced = some ans
  | w, _, .writeStore authId record, _, w' => w' = w.record authId record
  | w, i, .decided answer, _, w' => w' = w.update i.2 fun c => { c with answer := some answer }
  | w, i, .retire authId, _, w' => w' = w.setInflight (deliveries i.2).process authId none
  | w, i, .called, ans, w' => w' = w ∧ (w.cells i.2).intent = some ans
  | w, i, .settled result, _, w' => w' = w.update i.2 (·.race result.toOption)
  | w, i, .expire, _, w' => ((w.cells i.2).armed = true ∧ (w.cells i.2).cleared = false) ∧
    w' = w.update i.2 fun c => { (if c.intent.isSome then c.race none else c) with expired := true }
  | w, _, .nowIso, _, w' | w, _, .onDecision .., _, w' => w' = w

/-- The options of the process that a delivery comes to. -/
def optionsOf (n : ℕ) : StripeAuthorizationHandlerOptions := options (deliveries n).process

def program : Part × ℕ → StripeProgram (Option StripeHandlerResponse)
  | (.handler, n) => some <$> handle platform (optionsOf options deliveries n) (deliveries n).event
  | (.execution, n) => do
    execution platform (optionsOf options deliveries n)
    return none
  | (.timer, _) => do
    StripeProgram.ask .expire
    return none

/-- Before any delivery has come in. -/
def system (l : MemorySpendLimiter) :
    Pool StripeOp.Answer Thrown (Option StripeHandlerResponse) World (Part × ℕ) :=
  ⟨.start l, program platform options deliveries⟩

end System

/-! ### What each part keeps to -/

section Monitor
variable (platform : Platform) (options : ℕ → StripeAuthorizationHandlerOptions) (deliveries : ℕ → Delivery)

/-- The authorization that a delivery requests. -/
def Delivery.request (d : Delivery) : Option StripeAuthorization :=
  (d.event.toOption.filter (·.type = authRequest)).map (·.object)

/-- The payment that the guard is called with, if it is. -/
def paymentOf (n : ℕ) : PaymentIntent :=
  let opts := (optionsOf options deliveries n).toAuthorizationToIntentOptions
  match (deliveries n).request with
  | none => default
  | some auth => stripePayment platform opts auth ((agentIdOf opts auth).toOption.getD [])
      ((mandateIdOf opts auth).toOption.getD none)

/-- An answer that makes the network move the money. -/
def Approves (response : StripeHandlerResponse) : Prop :=
  response.status = 200 ∧ (encode "\x7b\"approved\":true").isPrefixOf response.body = true

instance (response : StripeHandlerResponse) : Decidable (Approves response) := inferInstanceAs (Decidable (_ ∧ _))

/-- The guard's call was executed, and in time. -/
def Won : Option (Option GuardResult) → Prop
  | some (some result) => isExecuted result = true
  | _ => False

/-- How far a handler has got. -/
structure Handling where
  joined : Option ℕ
  raced : Option (Option GuardResult)
  /-- What the store and other deliveries have answered. -/
  heard : List StripeHandlerResponse

inductive Stage
  | handling (h : Handling)
  | waiting
  | executing (φ : Phase) (l : Launch)
  | finished (φ : Phase) (l : Launch)
  | timing

/-- What the guard's call keeps to. -/
abbrev guardMonitor (n : ℕ) : Monitor Op.Answer (Phase × Launch) :=
  let guard := (optionsOf options deliveries n).guard
  (Guard.monitor platform guard .execute (paymentOf platform options deliveries n)).both
    (Launch.monitor platform guard (paymentOf platform options deliveries n))

namespace Stage

def mayHandle (n : ℕ) (auth : StripeAuthorization) (h : Handling) : StripeOp → Prop
  | .readStore authId | .joinInflight authId | .retire authId => authId = auth.id
  | .existing delivery => h.joined = some delivery
  | .execute intent => intent.payment = paymentOf platform options deliveries n
  | .writeStore authId record => authId = auth.id ∧ (Approves record.response → Won h.raced)
  | .decided (.ok response) => Approves response → Won h.raced
  | .armDeadline | .clearDeadline | .nowIso | .race | .onDecision .. | .decided (.error _) => True
  | _ => False

def handled (h : Handling) : (op : StripeOp) → op.Answer → Handling
  | .readStore _, some record => { h with heard := record.response :: h.heard }
  | .joinInflight _, joined => { h with joined := joined }
  | .existing _, .ok response => { h with heard := response :: h.heard }
  | .race, raced => { h with raced := some raced }
  | _, _ => h

/-- What a part may ask for. -/
def mayAsk (n : ℕ) : Stage → StripeOp → Prop
  | handling h, op => ∃ auth, (deliveries n).request = some auth ∧
    mayHandle platform options deliveries n auth h op
  | waiting, op => op = .called
  | executing φ l, .guard op => (guardMonitor platform options deliveries n).allowed (φ, l) op
  | executing φ l, .settled result => Settled .execute (paymentOf platform options deliveries n) φ result ∧
    l.Paid platform (optionsOf options deliveries n).guard (paymentOf platform options deliveries n) result
  | timing, op => op = .expire
  | _, _ => False

/-- Where an answer leads, which is about the delivery's own payment. -/
inductive Step (n : ℕ) : Stage → (op : StripeOp) → op.Answer → Stage → Prop
  | handle {h : Handling} {op : StripeOp} {ans : op.Answer} : Step n (handling h) op ans (handling (handled h op ans))
  | call {intent : StripeIntent} (own : intent.payment = paymentOf platform options deliveries n) :
    Step n waiting .called intent (executing (.before false) .start)
  | guard {φ : Phase} {l : Launch} {op : Op} {ans : op.Answer} (own : Guard.AnsweredOwn op ans) :
    Step n (executing φ l) (.guard op) ans
      (executing (φ.advance platform (paymentOf platform options deliveries n) op ans) (l.advance op ans))
  | settle {φ : Phase} {l : Launch} {result : Throwing GuardResult} :
    Step n (executing φ l) (.settled result) () (finished φ l)
  | expire : Step n timing .expire () timing

end Stage

def partMonitor (n : ℕ) : Monitor StripeOp.Answer Stage where
  allowed := Stage.mayAsk platform options deliveries n
  step := Stage.Step platform options deliveries n

/-- Where the parts of a delivery begin. -/
def Part.begun : Part → Stage
  | handler => .handling ⟨none, none, []⟩
  | execution => .waiting
  | timer => .timing

/-- What a part comes to. An approval is the handler's own, or one that it was told. -/
def Part.Concluded : Part → Stage → Throwing (Option StripeHandlerResponse) → Prop
  | handler, .handling h, .ok (some response) => Approves response → Won h.raced ∨ response ∈ h.heard
  | handler, .handling _, _ => True
  | handler, _, _ => False
  | _, _, _ => True

end Monitor

section Parts
variable {platform : Platform} {options : ℕ → StripeAuthorizationHandlerOptions} {deliveries : ℕ → Delivery} {n : ℕ}
  {auth : StripeAuthorization} {h : Handling}

/-! ### Approvals -/

theorem approves_respond {opts : StripeAuthorizationHandlerOptions} {verdict : Verdict} {authId : JsString}
    (approves : Approves (respond opts verdict authId)) : verdict.approved = true := by
  by_contra declined
  rw [Bool.not_eq_true] at declined
  have shown := List.prefix_iff_eq_take.mp (List.isPrefixOf_iff_prefix.mp approves.2)
  simp only [respond, declined, Bool.false_eq_true, if_false, List.append_assoc] at shown
  rw [← List.append_assoc (encode "\x7b\"approved\":"), List.take_append_of_le_length (by decide +kernel)] at shown
  revert shown
  decide +kernel

theorem not_approves_received : ¬Approves received := by
  unfold Approves
  decide +kernel

theorem verdictOf_approved {opts : StripeAuthorizationHandlerOptions} {raced : Option GuardResult}
    (approved : (verdictOf opts raced).approved = true) : Won (some raced) := by
  cases raced with
  | none => cases approved
  | some result => exact approved

/-! ### The handler -/

theorem handling_ask {op : StripeOp} {f : op.Answer → StripeProgram α} {post : Stage → Throwing α → Prop}
    (requested : (deliveries n).request = some auth)
    (allowed : Stage.mayHandle platform options deliveries n auth h op)
    (goes : ∀ ans, (f ans).Meets (partMonitor platform options deliveries n) post
      (.handling (Stage.handled h op ans))) :
    (StripeProgram.ask op >>= f).Meets (partMonitor platform options deliveries n) post (.handling h) := by
  refine (meets_bind _ _ _).mpr ⟨⟨auth, requested, allowed⟩, ?_⟩
  intro ans stage moved
  cases moved
  exact goes ans

/-- The handler goes on with what it heard before, and a fact of what it got. -/
def Handles (h : Handling) (fact : Handling → α → Prop) : Stage → Throwing α → Prop
  | .handling h', .ok a => h'.heard = h.heard ∧ fact h' a
  | .handling h', .error _ => h'.heard = h.heard
  | _, _ => False

/-- The rule for a part of the handler and what comes after it. -/
theorem handles_bind {p : StripeProgram α} {f : α → StripeProgram β} {fact : Handling → α → Prop}
    {post : Stage → Throwing β → Prop}
    (first : p.Meets (partMonitor platform options deliveries n) (Handles h fact) (.handling h))
    (rest : ∀ h' a, h'.heard = h.heard → fact h' a →
      (f a).Meets (partMonitor platform options deliveries n) post (.handling h'))
    (ends : ∀ h' e, h'.heard = h.heard → post (.handling h') (.error e)) :
    (p >>= f).Meets (partMonitor platform options deliveries n) post (.handling h) := by
  refine Meets.bind first ?_ ?_
  · intro stage a keeps
    cases stage with
    | handling h' => exact rest h' a keeps.1 keeps.2
    | _ => cases keeps
  · intro stage e keeps
    cases stage with
    | handling h' => exact ends h' e keeps
    | _ => cases keeps

theorem orThrow_handles {r : Throwing α} : (StripeProgram.orThrow r).Meets (partMonitor platform options deliveries n)
    (Handles h fun h' a => h' = h ∧ r = .ok a) (.handling h) := by
  cases r with
  | ok a => exact ⟨rfl, rfl, rfl⟩
  | error e => exact rfl

section Request
variable (requested : (deliveries n).request = some auth)
include requested

theorem authorizationToIntent_handles :
    (authorizationToIntent platform (optionsOf options deliveries n) auth).Meets
      (partMonitor platform options deliveries n)
      (Handles h fun h' intent => h' = h ∧ intent.payment = paymentOf platform options deliveries n) (.handling h) := by
  unfold authorizationToIntent
  refine handles_bind orThrow_handles ?_ fun _ _ => id
  rintro _ agentId - ⟨rfl, agent⟩
  refine handling_ask requested trivial fun requestedAt => ?_
  refine handles_bind orThrow_handles ?_ fun _ _ => id
  rintro _ requestedAt' - ⟨rfl, -⟩
  refine handles_bind orThrow_handles ?_ fun _ _ => id
  rintro _ mandateId - ⟨rfl, mandate⟩
  refine ⟨rfl, rfl, ?_⟩
  unfold paymentOf
  rw [requested]
  dsimp only
  rw [agent, mandate]
  rfl

theorem judge_handles :
    (judge platform (optionsOf options deliveries n) auth).Meets (partMonitor platform options deliveries n)
      (Handles h fun h' verdict => verdict.approved = true → Won h'.raced) (.handling h) := by
  unfold judge
  refine handles_bind (authorizationToIntent_handles requested) ?_ fun _ _ => id
  rintro _ intent - ⟨rfl, own⟩
  refine handling_ask requested own fun _ => ?_
  exact handling_ask requested trivial fun raced => ⟨rfl, fun approved => verdictOf_approved approved⟩

theorem decide_handles :
    (decide platform (optionsOf options deliveries n) auth).Meets (partMonitor platform options deliveries n)
      (Handles h fun h' response => Approves response → Won h'.raced) (.handling h) := by
  unfold decide
  have judged : (tryCatch (judge platform (optionsOf options deliveries n) auth) adapterError).Meets
      (partMonitor platform options deliveries n)
      (Handles h fun h' verdict => verdict.approved = true → Won h'.raced) (.handling h) := by
    refine (meets_tryCatch _ _ _).mpr ((judge_handles requested).mono ?_)
    intro stage r keeps
    cases r with
    | ok verdict => exact keeps
    | error e =>
      cases stage with
      | handling h' =>
        unfold adapterError
        refine Meets.bind (orThrow_handles (h := h') (r := errMsg e)) ?_ ?_
        · rintro stage text told
          cases stage with
          | handling h'' => exact ⟨told.1.trans keeps, by rintro ⟨⟩⟩
          | _ => cases told
        · rintro stage e' told
          cases stage with
          | handling h'' => exact told.trans keeps
          | _ => cases told
      | _ => cases keeps
  refine handles_bind judged ?_ fun _ _ => id
  intro h' verdict same truthful
  refine handling_ask requested trivial fun decidedAt => ?_
  refine handles_bind orThrow_handles ?_ fun _ _ kept => kept.trans same
  rintro h'' decidedAt' - ⟨here, -⟩
  subst here
  have approves : Approves (respond (optionsOf options deliveries n) verdict auth.id) → Won h''.raced :=
    fun approves => truthful (approves_respond approves)
  refine handling_ask requested ⟨rfl, approves⟩ fun _ => ?_
  exact handling_ask requested trivial fun _ => ⟨same, approves⟩

theorem decideInflight_concludes :
    (decideInflight platform (optionsOf options deliveries n) auth).Meets (partMonitor platform options deliveries n)
      (Handles h fun h' answered => ∃ response, answered = .ready response ∧ (Approves response → Won h'.raced))
      (.handling h) := by
  unfold decideInflight
  refine (meets_bind _ _ _).mpr ((Async.meets_outcomeOf _ _).mpr ((decide_handles requested).mono ?_))
  intro stage r handles
  cases stage with
  | handling h' =>
    cases r with
    | ok response =>
      refine handling_ask requested handles.2 fun _ => ?_
      exact handling_ask requested rfl fun _ => ⟨handles.1, response, rfl, handles.2⟩
    | error e =>
      refine handling_ask requested trivial fun _ => ?_
      exact handling_ask requested rfl fun _ => handles
  | _ => cases r <;> cases handles

/-- What a delivery returns, as far as an approval goes. -/
def Returns : Stage → Throwing Answered → Prop
  | .handling h, .ok (.ready response) => Approves response → Won h.raced ∨ response ∈ h.heard
  | .handling h, .ok (.existing delivery) => h.joined = some delivery
  | .handling _, .error _ => True
  | _, _ => False

theorem answerRequest_returns :
    (answerRequest platform (optionsOf options deliveries n) auth).Meets (partMonitor platform options deliveries n)
      Returns (.handling h) := by
  unfold answerRequest
  refine handling_ask requested rfl fun record => ?_
  cases record with
  | some record => exact fun _ => .inr List.mem_cons_self
  | none =>
    unfold singleFlight
    refine handling_ask requested rfl fun joined => ?_
    cases joined with
    | some delivery => exact rfl
    | none =>
      refine (decideInflight_concludes requested).mono ?_
      intro stage r handles
      cases stage with
      | handling h' =>
        cases r with
        | ok answered =>
          obtain ⟨-, response, rfl, truthful⟩ := handles
          exact fun approves => .inl (truthful approves)
        | error e => trivial
      | _ => cases r <;> cases handles

theorem handleRequest_concludes :
    (handleRequest platform (optionsOf options deliveries n) auth).Meets (partMonitor platform options deliveries n)
      (fun stage r => Part.Concluded .handler stage (r.map some)) (.handling h) := by
  unfold handleRequest
  refine (meets_bind _ _ _).mpr ((meets_bracket _ _ _ _).mpr ⟨⟨auth, requested, trivial⟩, ?_⟩)
  rintro _ stage ⟨⟩
  refine (answerRequest_returns requested).mono ?_
  intro stage r returns
  cases stage with
  | handling h' =>
    refine ⟨⟨auth, requested, trivial⟩, ?_⟩
    rintro _ stage ⟨⟩
    cases r with
    | ok answered =>
      cases answered with
      | ready response => exact returns
      | existing delivery =>
        refine handling_ask requested returns fun answer => ?_
        cases answer with
        | ok response => exact fun _ => .inr List.mem_cons_self
        | error e => trivial
    | error e => trivial
  | _ => cases r <;> cases returns

end Request

theorem handle_concludes :
    (handle platform (optionsOf options deliveries n) (deliveries n).event).Meets
      (partMonitor platform options deliveries n) (fun stage r => Part.Concluded .handler stage (r.map some))
      (Part.begun .handler) := by
  unfold handle
  cases event : (deliveries n).event with
  | error err =>
    dsimp only
    cases errMsg err with
    | ok text =>
      rintro ⟨status, -⟩
      cases status
    | error e => trivial
  | ok e =>
    dsimp only
    split_ifs with other
    · exact fun approves => absurd approves not_approves_received
    · refine handleRequest_concludes ?_
      rw [Delivery.request, event]
      simp [Except.toOption, not_not.mp other]

/-! ### The guard's call -/

/-- The guard's call, as the delivery's part that makes it. -/
abbrev Executing (φ : Phase × Launch) (_ : Unit) (stage : Stage) : Prop := stage = .executing φ.1 φ.2

theorem execution_concludes :
    (execution platform (optionsOf options deliveries n)).Meets (partMonitor platform options deliveries n)
      (fun _ _ => True) (Part.begun .execution) := by
  unfold execution
  refine (meets_bind _ _ _).mpr ⟨rfl, ?_⟩
  intro intent stage moved
  obtain ⟨own, rfl⟩ : intent.payment = paymentOf platform options deliveries n ∧
      stage = .executing (.before false) .start := by
    cases moved with
    | call own => exact ⟨own, rfl⟩
  have pays : (inspected intent.heap (.ref 0) intent.payment).Pays intent.payment := inspected_pays
  change (((optionsOf options deliveries n).guard.run platform .execute
    (inspected intent.heap (.ref 0) intent.payment)).carry serve () >>= _).Meets _ _ _
  generalize inspected intent.heap (.ref 0) intent.payment = intake at pays
  rw [own] at pays
  have course : ((optionsOf options deliveries n).guard.run platform .execute intake).Meets
      (Guard.monitor platform (optionsOf options deliveries n).guard .execute (paymentOf platform options deliveries n))
      (Settled .execute (paymentOf platform options deliveries n)) (.before false) := run_meets pays
  have launches : ((optionsOf options deliveries n).guard.run platform .execute intake).Meets
      (Launch.monitor platform (optionsOf options deliveries n).guard (paymentOf platform options deliveries n))
      (Launch.Paid platform (optionsOf options deliveries n).guard (paymentOf platform options deliveries n)) .start :=
    VadunoGuard.run_launches pays
  refine Meets.bind (Meets.carry (course.both launches) Executing ?_ rfl) ?_ ?_
  · rintro φ _ stage op rfl allowed
    refine ⟨allowed, fun ans stage moved => ?_⟩
    cases moved with
    | guard own => exact ⟨(_, _), ⟨⟨rfl, own⟩, rfl⟩, rfl⟩
  · rintro stage ⟨result, -⟩ ⟨φ, rfl, settled⟩
    exact ⟨settled, fun _ _ _ => trivial⟩
  · intro stage e failed
    trivial

theorem program_concludes (part : Part) :
    (program platform options deliveries (part, n)).Meets (partMonitor platform options deliveries n) part.Concluded
      part.begun := by
  cases part with
  | handler => exact (meets_map _ _ _).mpr handle_concludes
  | execution => exact Meets.bind execution_concludes (fun _ _ _ => trivial) fun _ _ _ => trivial
  | timer => exact ⟨rfl, fun _ _ _ => trivial⟩

end Parts

end Vaduno.Stripe
