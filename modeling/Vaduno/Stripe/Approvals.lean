import Vaduno.Stripe.Deliveries

/-! Of one authorization, one guard's call at most runs its executor, and every approval that any delivery answers is
that call's: its payment was cleared, the call settled before the timer fired, and the limiter counts the payment. -/
namespace Vaduno.Stripe
open Ecma Enforce Policy Guard Async

section Invariant
variable (platform : Platform) (options : ℕ → StripeAuthorizationHandlerOptions) (deliveries : ℕ → Delivery)

abbrev StripeEvents := List ((Part × ℕ) × Event StripeOp.Answer)

/-- What a guard's call asked for, as the guard's own events tell it. -/
def guardEvent : (Part × ℕ) × Event StripeOp.Answer → Option (ℕ × Event Op.Answer)
  | ((.execution, n), ⟨.guard op, ans⟩) => some (n, ⟨op, ans⟩)
  | _ => none

def guardEvents (events : StripeEvents) : List (ℕ × Event Op.Answer) := events.filterMap guardEvent

def Stage.phase : Stage → Phase
  | executing φ _ | finished φ _ => φ
  | _ => .before false

def Stage.launch : Stage → Launch
  | executing _ l | finished _ l => l
  | _ => .start

/-- What one delivery's guard call has achieved. -/
def launchOf (n : ℕ) (events : List (ℕ × Event Op.Answer)) : Launch :=
  events.foldl (fun l e => if e.1 = n then l.advance e.2.1 e.2.2 else l) .start

def phasesOf (stages : Part × ℕ → Stage) (n : ℕ) : Phase := (stages (.execution, n)).phase

/-- Each part goes through its own stages. -/
def Part.Owns : Part → Stage → Prop
  | handler, .handling _ | timer, .timing => True
  | execution, .waiting | execution, .executing .. | execution, .finished .. => True
  | _, _ => False

def expiry (n : ℕ) : (Part × ℕ) × Event StripeOp.Answer := ((.timer, n), ⟨.expire, ()⟩)

/-- The guard's call was executed before the timer fired. -/
def InTime (n : ℕ) (events : StripeEvents) : Prop := ∃ earlier result later, isExecuted result = true ∧
  events = earlier ++ ((.execution, n), ⟨.settled (.ok result), ()⟩) :: later ∧ expiry n ∉ earlier

/-- The guard's call had cleared the payment, and the executor did not fail. -/
def Finished (n : ℕ) (events : StripeEvents) (stage : Stage) : Prop :=
  (∃ φ l value, stage = .finished φ l ∧ φ.rail = .ran (.ok value) ∧
    l.Cleared platform (optionsOf options deliveries n).guard (paymentOf platform options deliveries n)) ∧
  InTime n events

structure CellOk (n : ℕ) (events : StripeEvents) (c : Cell) (stage : Stage) : Prop where
  intent : ∀ intent, c.intent = some intent → intent.payment = paymentOf platform options deliveries n
  begun : stage ≠ .waiting → c.intent.isSome = true
  late : c.expired = true → c.intent.isSome = true → c.raced.isSome = true
  timely : c.expired = false → expiry n ∉ events
  won : Won c.raced → Finished platform options deliveries n events stage
  answer : ∀ response, c.answer = some (.ok response) → Approves response → Won c.raced

/-- The authorization that a delivery is about. -/
def authIdOf (n : ℕ) : Option JsString := (deliveries n).request.map (·.id)

/-- Some delivery of the authorization has won its race. -/
def Winner (w : World) (authId : JsString) : Prop :=
  ∃ m, authIdOf deliveries m = some authId ∧ Won (w.cells m).raced

structure Handled (w : World) (n : ℕ) (h : Handling) : Prop where
  joined : ∀ m, h.joined = some m → authIdOf deliveries m = authIdOf deliveries n
  raced : Won h.raced → (∃ authId, authIdOf deliveries n = some authId) ∧ Won (w.cells n).raced
  heard : ∀ response ∈ h.heard, Approves response → ∃ authId, authIdOf deliveries n = some authId ∧
    Winner deliveries w authId

structure Consistent (events : StripeEvents) (w : World) (stages : Part × ℕ → Stage) : Prop where
  owns : ∀ part n, Part.Owns part (stages (part, n))
  course : Course (paymentOf platform options deliveries) (guardEvents events) w.limiter (phasesOf stages)
  launched : ∀ n, (stages (.execution, n)).launch = launchOf n (guardEvents events)
  cells : ∀ n, CellOk platform options deliveries n events (w.cells n) (stages (.execution, n))
  records : ∀ authId, ∀ record ∈ w.records authId, Approves record.response → Winner deliveries w authId
  inflight : ∀ process authId m, w.inflight process authId = some m → authIdOf deliveries m = some authId
  handled : ∀ n h, stages (.handler, n) = .handling h → Handled deliveries w n h

end Invariant

section Steps
variable {platform : Platform} {options : ℕ → StripeAuthorizationHandlerOptions} {deliveries : ℕ → Delivery}
  {events : StripeEvents} {e : (Part × ℕ) × Event StripeOp.Answer} {w w' : World} {stages : Part × ℕ → Stage} {n m : ℕ}
  {c : Cell} {stage : Stage} {h h' : Handling} {auth : StripeAuthorization}

theorem InTime.mono (inTime : InTime n events) : InTime n (events ++ [e]) := by
  obtain ⟨earlier, result, later, executed, same, before⟩ := inTime
  exact ⟨earlier, result, later ++ [e], executed, by rw [same, List.append_assoc, List.cons_append], before⟩

/-- What else happens leaves a cell's facts as they are. -/
theorem CellOk.later (ok : CellOk platform options deliveries n events c stage) (other : e ≠ expiry n) :
    CellOk platform options deliveries n (events ++ [e]) c stage where
  intent := ok.intent
  begun := ok.begun
  late := ok.late
  timely unexpired member := by
    rcases List.mem_append.mp member with earlier | last
    · exact ok.timely unexpired earlier
    · exact other (List.mem_singleton.mp last).symm
  won won := ⟨(ok.won won).1, (ok.won won).2.mono⟩
  answer := ok.answer

/-- Races that were won stay won. -/
def Grows (w w' : World) : Prop := ∀ m, Won (w.cells m).raced → Won (w'.cells m).raced

theorem Winner.mono {authId : JsString} (winner : Winner deliveries w authId) (grows : Grows w w') :
    Winner deliveries w' authId := by
  obtain ⟨m, own, won⟩ := winner
  exact ⟨m, own, grows m won⟩

theorem Handled.mono (handled : Handled deliveries w n h) (grows : Grows w w') : Handled deliveries w' n h where
  joined := handled.joined
  raced won := (handled.raced won).imp id (grows n)
  heard response member approves := by
    obtain ⟨authId, own, winner⟩ := handled.heard response member approves
    exact ⟨authId, own, winner.mono grows⟩

theorem Grows.refl (w : World) : Grows w w := fun _ => id

theorem race_won {result : Option GuardResult} (won : Won c.raced) : Won (c.race result).raced := by
  unfold Cell.race
  cases raced : c.raced with
  | none =>
    rw [raced] at won
    cases won
  | some ended =>
    rw [raced] at won
    exact won

/-- A change to one cell that keeps what it has won. -/
theorem grows_update {f : Cell → Cell} (grows : Won (w.cells n).raced → Won (f (w.cells n)).raced) :
    Grows w (w.update n f) := by
  intro m won
  unfold World.update
  dsimp only
  rcases eq_or_ne m n with rfl | other
  · rw [Function.update_self]
    exact grows won
  · rwa [Function.update_of_ne other]

theorem cells_update {f : Cell → Cell} {stageOf : ℕ → Stage}
    (ok : ∀ m, CellOk platform options deliveries m events (w.cells m) (stageOf m))
    (own : CellOk platform options deliveries n events (f (w.cells n)) (stageOf n)) :
    ∀ m, CellOk platform options deliveries m events ((w.update n f).cells m) (stageOf m) := by
  intro m
  unfold World.update
  dsimp only
  rcases eq_or_ne m n with rfl | other
  · rwa [Function.update_self]
  · rw [Function.update_of_ne other]
    exact ok m

theorem guardEvents_other (unguarded : guardEvent e = none) : guardEvents (events ++ [e]) = guardEvents events := by
  unfold guardEvents
  rw [List.filterMap_append, List.filterMap_cons_none unguarded, List.filterMap_nil, List.append_nil]

/-- A handler's step changes neither the guard's calls nor the limiter. -/
theorem Consistent.handle {event : Event StripeOp.Answer}
    (consistent : Consistent platform options deliveries events w stages) (limiter : w'.limiter = w.limiter)
    (grows : Grows w w')
    (cells : ∀ m, CellOk platform options deliveries m events (w'.cells m) (stages (.execution, m)))
    (records : ∀ authId, ∀ record ∈ w'.records authId, Approves record.response → Winner deliveries w' authId)
    (inflight : ∀ process authId m, w'.inflight process authId = some m → authIdOf deliveries m = some authId)
    (own : Handled deliveries w' n h') (unguarded : guardEvent ((.handler, n), event) = none) :
    Consistent platform options deliveries (events ++ [((.handler, n), event)]) w'
      (Function.update stages (.handler, n) (.handling h')) where
  owns part k := by
    rcases eq_or_ne (part, k) (.handler, n) with same | other
    · cases same
      rw [Function.update_self]
      trivial
    · rw [Function.update_of_ne other]
      exact consistent.owns part k
  course := by
    rw [guardEvents_other unguarded, limiter]
    exact consistent.course
  launched m := by
    rw [guardEvents_other unguarded, Function.update_of_ne (by simp)]
    exact consistent.launched m
  cells m := by
    rw [Function.update_of_ne (by simp)]
    exact (cells m).later (by simp [expiry])
  records := records
  inflight := inflight
  handled m h held := by
    rcases eq_or_ne m n with rfl | other
    · rw [Function.update_self] at held
      cases held
      exact own
    · rw [Function.update_of_ne (by simp [other])] at held
      exact (consistent.handled m h held).mono grows

/-- One that changes its own cell only. -/
theorem Consistent.handle_cell {event : Event StripeOp.Answer} {f : Cell → Cell}
    (consistent : Consistent platform options deliveries events w stages) (current : stages (.handler, n) = .handling h)
    (grows : Won (w.cells n).raced → Won (f (w.cells n)).raced)
    (own : CellOk platform options deliveries n events (f (w.cells n)) (stages (.execution, n)))
    (unguarded : guardEvent ((.handler, n), event) = none) :
    Consistent platform options deliveries (events ++ [((.handler, n), event)]) (w.update n f)
      (Function.update stages (.handler, n) (.handling h)) := by
  have grown := grows_update (w := w) grows
  refine consistent.handle rfl grown (cells_update consistent.cells own) ?_ consistent.inflight
    ((consistent.handled n h current).mono grown) unguarded
  exact fun authId record member approves => (consistent.records authId record member approves).mono grown

/-- One that changes nothing but what the handler knows. -/
theorem Consistent.handle_known {event : Event StripeOp.Answer}
    (consistent : Consistent platform options deliveries events w stages) (own : Handled deliveries w n h')
    (unguarded : guardEvent ((.handler, n), event) = none) :
    Consistent platform options deliveries (events ++ [((.handler, n), event)]) w
      (Function.update stages (.handler, n) (.handling h')) :=
  consistent.handle rfl (.refl w) consistent.cells consistent.records consistent.inflight own unguarded

theorem authIdOf_requested (requested : (deliveries n).request = some auth) :
    authIdOf deliveries n = some auth.id := by
  rw [authIdOf, requested]
  rfl

theorem setInflight_own {process : ℕ} {authId : JsString} {delivery : Option ℕ}
    (inflight : ∀ process authId m, w.inflight process authId = some m → authIdOf deliveries m = some authId)
    (own : ∀ m, delivery = some m → authIdOf deliveries m = some authId) (process' : ℕ) (authId' : JsString) (m : ℕ)
    (held : (w.setInflight process authId delivery).inflight process' authId' = some m) :
    authIdOf deliveries m = some authId' := by
  unfold World.setInflight at held
  dsimp only at held
  rcases eq_or_ne process' process with rfl | other
  · rw [Function.update_self] at held
    rcases eq_or_ne authId' authId with rfl | other
    · rw [Function.update_self] at held
      exact own m held
    · rw [Function.update_of_ne other] at held
      exact inflight process' authId' m held
  · rw [Function.update_of_ne other] at held
    exact inflight process' authId' m held

theorem CellOk.execute {intent : StripeIntent} (ok : CellOk platform options deliveries n events c stage)
    (own : intent.payment = paymentOf platform options deliveries n) :
    CellOk platform options deliveries n events
      (if c.expired then { c with intent := some intent }.race none else { c with intent := some intent }) stage := by
  split_ifs with expired
  · refine ⟨?_, fun _ => rfl, fun _ _ => ?_, ok.timely, ?_, fun response answered approves =>
      race_won (ok.answer response answered approves)⟩
    · rintro _ ⟨⟩
      exact own
    · unfold Cell.race
      cases c.raced <;> rfl
    · intro won
      unfold Cell.race at won
      cases raced : c.raced with
      | none =>
        simp only [raced] at won
        cases won
      | some ended =>
        simp only [raced] at won
        exact ok.won (by rw [raced]; exact won)
  · refine ⟨?_, fun _ => rfl, fun late => absurd late expired, ok.timely, ok.won, ok.answer⟩
    rintro _ ⟨⟩
    exact own

theorem Consistent.handle_step {op : StripeOp} {ans : op.Answer}
    (consistent : Consistent platform options deliveries events w stages) (current : stages (.handler, n) = .handling h)
    (requested : (deliveries n).request = some auth)
    (allowed : Stage.mayHandle platform options deliveries n auth h op)
    (answered : Answers deliveries w (.handler, n) op ans w') :
    Consistent platform options deliveries (events ++ [((.handler, n), ⟨op, ans⟩)]) w'
      (Function.update stages (.handler, n) (.handling (Stage.handled h op ans))) := by
  have handled := consistent.handled n h current
  have ok := consistent.cells n
  have identified := authIdOf_requested requested
  cases op with
  | guard | called | settled | expire => cases allowed
  | armDeadline | clearDeadline =>
    subst answered
    exact consistent.handle_cell current id ⟨ok.intent, ok.begun, ok.late, ok.timely, ok.won, ok.answer⟩ rfl
  | nowIso | onDecision =>
    obtain rfl : w' = w := answered
    exact consistent.handle_known handled rfl
  | readStore authId =>
    obtain ⟨rfl, stored⟩ := answered
    obtain rfl : authId = auth.id := allowed
    refine consistent.handle_known ?_ rfl
    cases ans with
    | none => exact handled
    | some record =>
      refine ⟨handled.joined, handled.raced, ?_⟩
      intro response member approves
      rcases List.mem_cons.mp member with rfl | earlier
      · exact ⟨_, identified, consistent.records _ record (stored record rfl) approves⟩
      · exact handled.heard response earlier approves
  | joinInflight authId =>
    obtain ⟨rfl, rfl⟩ := answered
    obtain rfl : authId = auth.id := allowed
    cases joined : w.inflight (deliveries n).process auth.id with
    | some m =>
      refine consistent.handle_known ⟨?_, handled.raced, handled.heard⟩ rfl
      rintro _ ⟨⟩
      exact (consistent.inflight _ _ m joined).trans identified.symm
    | none =>
      refine consistent.handle rfl (.refl w) consistent.cells consistent.records ?_
        ⟨by rintro _ ⟨⟩, handled.raced, handled.heard⟩ rfl
      refine setInflight_own consistent.inflight ?_
      rintro _ ⟨⟩
      exact identified
  | existing delivery =>
    obtain ⟨rfl, settled⟩ := answered
    refine consistent.handle_known ?_ rfl
    cases ans with
    | error e => exact handled
    | ok response =>
      refine ⟨handled.joined, handled.raced, ?_⟩
      intro response' member approves
      rcases List.mem_cons.mp member with rfl | earlier
      · exact ⟨_, identified, delivery, (handled.joined delivery allowed).trans identified,
          (consistent.cells delivery).answer _ settled approves⟩
      · exact handled.heard response' earlier approves
  | execute intent =>
    subst answered
    refine consistent.handle_cell current ?_ (ok.execute allowed) rfl
    intro won
    split_ifs
    · exact race_won won
    · exact won
  | race =>
    obtain ⟨rfl, raced⟩ := answered
    refine consistent.handle_known ⟨handled.joined, ?_, handled.heard⟩ rfl
    rw [raced]
    exact fun won => ⟨⟨_, identified⟩, won⟩
  | writeStore authId record =>
    obtain rfl : w' = w.record authId record := answered
    obtain ⟨rfl, truthful⟩ := allowed
    refine consistent.handle rfl (.refl w) consistent.cells ?_ consistent.inflight (handled.mono fun _ => id) rfl
    intro authId record' member approves
    unfold World.record at member
    dsimp only at member
    rcases eq_or_ne authId auth.id with rfl | other
    · rw [Function.update_self] at member
      rcases List.mem_cons.mp member with rfl | earlier
      · exact ⟨n, identified, (handled.raced (truthful approves)).2⟩
      · exact consistent.records _ record' earlier approves
    · rw [Function.update_of_ne other] at member
      exact consistent.records authId record' member approves
  | decided answer =>
    subst answered
    refine consistent.handle_cell current id ⟨ok.intent, ok.begun, ok.late, ok.timely, ok.won, ?_⟩ rfl
    rintro response ⟨⟩ approves
    exact (handled.raced (allowed approves)).2
  | retire authId =>
    subst answered
    refine consistent.handle rfl (.refl w) consistent.cells consistent.records ?_ (handled.mono fun _ => id) rfl
    exact setInflight_own consistent.inflight (by rintro _ ⟨⟩)

/-- A step of a part that is no handler. -/
theorem Consistent.beside {part : Part} {event : Event StripeOp.Answer}
    (consistent : Consistent platform options deliveries events w stages) (owns : part.Owns stage)
    (other : part ≠ .handler) (grows : Grows w w') (records : w'.records = w.records)
    (inflight : w'.inflight = w.inflight)
    (course : Course (paymentOf platform options deliveries) (guardEvents (events ++ [((part, n), event)])) w'.limiter
      (phasesOf (Function.update stages (part, n) stage)))
    (launched : ∀ m, (Function.update stages (part, n) stage (.execution, m)).launch =
      launchOf m (guardEvents (events ++ [((part, n), event)])))
    (cells : ∀ m, CellOk platform options deliveries m (events ++ [((part, n), event)]) (w'.cells m)
      (Function.update stages (part, n) stage (.execution, m))) :
    Consistent platform options deliveries (events ++ [((part, n), event)]) w'
      (Function.update stages (part, n) stage) where
  owns part' k := by
    rcases eq_or_ne (part', k) (part, n) with same | apart
    · cases same
      rwa [Function.update_self]
    · rw [Function.update_of_ne apart]
      exact consistent.owns part' k
  course := course
  launched := launched
  cells := cells
  records authId record member approves := by
    rw [records] at member
    exact (consistent.records authId record member approves).mono grows
  inflight := by
    rw [inflight]
    exact consistent.inflight
  handled m h held := by
    rw [Function.update_of_ne (by simp [Ne.symm other])] at held
    exact (consistent.handled m h held).mono grows

/-- A part that changes no phase leaves the guard's calls alone. -/
theorem Course.unguarded {part : Part} {event : Event StripeOp.Answer}
    (course : Course (paymentOf platform options deliveries) (guardEvents events) w.limiter (phasesOf stages))
    (unguarded : guardEvent ((part, n), event) = none) (phase : stage.phase = (stages (part, n)).phase) :
    Course (paymentOf platform options deliveries) (guardEvents (events ++ [((part, n), event)])) w.limiter
      (phasesOf (Function.update stages (part, n) stage)) := by
  have same : phasesOf (Function.update stages (part, n) stage) = phasesOf stages := by
    funext m
    unfold phasesOf
    rcases eq_or_ne (.execution, m) (part, n) with here | apart
    · rw [here, Function.update_self, phase]
    · rw [Function.update_of_ne apart]
  rw [guardEvents_other unguarded, same]
  exact course

theorem launched_unguarded {part : Part} {event : Event StripeOp.Answer}
    (launched : ∀ m, (stages (.execution, m)).launch = launchOf m (guardEvents events))
    (unguarded : guardEvent ((part, n), event) = none) (same : stage.launch = (stages (part, n)).launch) (m : ℕ) :
    (Function.update stages (part, n) stage (.execution, m)).launch =
      launchOf m (guardEvents (events ++ [((part, n), event)])) := by
  rw [guardEvents_other unguarded, ← launched m]
  rcases eq_or_ne (.execution, m) (part, n) with here | apart
  · rw [here, Function.update_self, same]
  · rw [Function.update_of_ne apart]

/-- What is about another cell. -/
theorem cells_beside {part : Part} {event : Event StripeOp.Answer}
    (ok : ∀ m, CellOk platform options deliveries m events (w.cells m) (stages (.execution, m)))
    (own : CellOk platform options deliveries n (events ++ [((part, n), event)]) (w'.cells n)
      (Function.update stages (part, n) stage (.execution, n)))
    (others : ∀ m, m ≠ n → w'.cells m = w.cells m) (m : ℕ) :
    CellOk platform options deliveries m (events ++ [((part, n), event)]) (w'.cells m)
      (Function.update stages (part, n) stage (.execution, m)) := by
  rcases eq_or_ne m n with rfl | other
  · exact own
  · rw [others m other, Function.update_of_ne (by simp [other])]
    refine (ok m).later ?_
    intro same
    exact other (congrArg (·.1.2) same).symm

theorem update_others {f : Cell → Cell} (m : ℕ) (other : m ≠ n) : (w.update n f).cells m = w.cells m :=
  Function.update_of_ne other _ _

theorem update_own {f : Cell → Cell} : (w.update n f).cells n = f (w.cells n) := Function.update_self ..

/-- A call that is not finished has won nothing. -/
theorem CellOk.unwon (ok : CellOk platform options deliveries n events c stage)
    (unended : ∀ φ l, stage ≠ .finished φ l) : ¬Won c.raced := by
  intro won
  obtain ⟨⟨φ, l, value, finished, -⟩, -⟩ := ok.won won
  exact unended φ l finished

theorem Consistent.call_step {intent : StripeIntent}
    (consistent : Consistent platform options deliveries events w stages) (current : stages (.execution, n) = .waiting)
    (answered : Answers deliveries w (.execution, n) .called intent w') :
    intent.payment = paymentOf platform options deliveries n ∧
      Consistent platform options deliveries (events ++ [((.execution, n), ⟨.called, intent⟩)]) w'
        (Function.update stages (.execution, n) (.executing (.before false) .start)) := by
  obtain ⟨same, called⟩ := answered
  obtain rfl : w = w' := same.symm
  have ok := consistent.cells n
  refine ⟨ok.intent intent called, ?_⟩
  refine consistent.beside trivial Part.noConfusion (.refl w) rfl rfl
    (Course.unguarded consistent.course rfl (by rw [current]; rfl))
    (launched_unguarded consistent.launched rfl (by rw [current]; rfl))
    (cells_beside consistent.cells ?_ fun _ _ => rfl)
  rw [Function.update_self]
  have unwon := ok.unwon (by rw [current]; exact fun _ _ => Stage.noConfusion)
  refine ⟨ok.intent, fun _ => by rw [called]; rfl, ok.late, (ok.later ?_).timely, fun won => absurd won unwon,
    ok.answer⟩
  exact fun same => by cases same

theorem launchOf_concat {gEvents : List (ℕ × Event Op.Answer)} {op : Op} {ans : op.Answer} :
    launchOf m (gEvents ++ [(n, ⟨op, ans⟩)]) =
      if n = m then (launchOf m gEvents).advance op ans else launchOf m gEvents := by
  unfold launchOf
  rw [List.foldl_append]
  rfl

theorem guardEvents_guard {op : Op} {ans : op.Answer} :
    guardEvents (events ++ [((.execution, n), ⟨.guard op, ans⟩)]) = guardEvents events ++ [(n, ⟨op, ans⟩)] := by
  unfold guardEvents
  rw [List.filterMap_append]
  rfl

theorem Consistent.guard_step {φ : Phase} {l : Launch} {op : Op} {ans : op.Answer}
    (consistent : Consistent platform options deliveries events w stages)
    (current : stages (.execution, n) = .executing φ l)
    (allowed : (guardMonitor platform options deliveries n).allowed (φ, l) op)
    (answered : Answers deliveries w (.execution, n) (.guard op) ans w') :
    Guard.AnsweredOwn op ans ∧
      Consistent platform options deliveries (events ++ [((.execution, n), ⟨.guard op, ans⟩)]) w'
        (Function.update stages (.execution, n)
          (.executing (φ.advance platform (paymentOf platform options deliveries n) op ans) (l.advance op ans))) := by
  obtain ⟨limiter, answered, -, rfl⟩ := answered
  have ok := consistent.cells n
  refine ⟨own_of_answered answered, ?_⟩
  have phase : phasesOf stages n = φ := by
    unfold phasesOf
    rw [current]
    rfl
  have launch : l = launchOf n (guardEvents events) := by
    rw [← consistent.launched n, current]
    rfl
  refine consistent.beside trivial Part.noConfusion (fun _ => id) rfl rfl ?_ ?_
    (cells_beside consistent.cells ?_ fun _ _ => rfl)
  · have phases : phasesOf (Function.update stages (.execution, n)
        (.executing (φ.advance platform (paymentOf platform options deliveries n) op ans) (l.advance op ans))) =
        Function.update (phasesOf stages) n
          ((phasesOf stages n).advance platform (paymentOf platform options deliveries n) op ans) := by
      funext m
      rcases eq_or_ne m n with rfl | other
      · rw [Function.update_self, phase]
        unfold phasesOf
        rw [Function.update_self]
        rfl
      · rw [Function.update_of_ne other]
        unfold phasesOf
        rw [Function.update_of_ne (by simp [other])]
    rw [guardEvents_guard, phases]
    exact consistent.course.step (by rw [phase]; exact allowed.1) answered
  · intro m
    rw [guardEvents_guard, launchOf_concat]
    rcases eq_or_ne m n with rfl | other
    · rw [Function.update_self, if_pos rfl, ← launch]
      rfl
    · rw [Function.update_of_ne (by simp [other]), if_neg (Ne.symm other)]
      exact consistent.launched m
  · rw [Function.update_self]
    have unwon := ok.unwon (by rw [current]; exact fun _ _ => Stage.noConfusion)
    refine ⟨ok.intent, fun _ => ok.begun (by rw [current]; exact Stage.noConfusion), ok.late, (ok.later ?_).timely,
      fun won => absurd won unwon, ok.answer⟩
    exact fun same => by cases same

/-- A race is won by a call that was executed only. -/
theorem won_race {result : Option GuardResult} (won : Won (c.race result).raced) :
    Won c.raced ∨ c.raced = none ∧ ∃ executed, result = some executed ∧ isExecuted executed = true := by
  unfold Cell.race at won
  cases raced : c.raced with
  | none =>
    simp only [raced] at won
    cases result with
    | none => cases won
    | some executed => exact .inr ⟨rfl, executed, rfl, won⟩
  | some ended =>
    simp only [raced] at won
    exact .inl won

theorem raced_race {result : Option GuardResult} : (c.race result).raced.isSome = true := by
  unfold Cell.race
  cases c.raced <;> rfl

theorem Consistent.settle_step {φ : Phase} {l : Launch} {result : Throwing GuardResult}
    (consistent : Consistent platform options deliveries events w stages)
    (current : stages (.execution, n) = .executing φ l)
    (settled : Settled .execute (paymentOf platform options deliveries n) φ result)
    (paid : l.Paid platform (optionsOf options deliveries n).guard (paymentOf platform options deliveries n) result) :
    Consistent platform options deliveries (events ++ [((.execution, n), ⟨.settled result, ()⟩)])
      (w.update n (·.race result.toOption)) (Function.update stages (.execution, n) (.finished φ l)) := by
  have ok := consistent.cells n
  have unwon := ok.unwon (by rw [current]; exact fun _ _ => Stage.noConfusion)
  have begun := ok.begun (by rw [current]; exact Stage.noConfusion)
  refine consistent.beside trivial Part.noConfusion (grows_update race_won) rfl rfl
    (Course.unguarded consistent.course rfl (by rw [current]; rfl))
    (launched_unguarded consistent.launched rfl (by rw [current]; rfl))
    (cells_beside consistent.cells ?_ update_others)
  rw [Function.update_self, update_own]
  refine ⟨ok.intent, fun _ => begun, fun _ _ => raced_race, (ok.later (fun same => by cases same)).timely, ?_,
    fun response answered approves => race_won (ok.answer response answered approves)⟩
  intro won
  obtain ⟨open_, executed, same, done⟩ := (won_race won).resolve_left unwon
  cases result with
  | error e => cases same
  | ok result =>
    cases same
    cases executed with
    | executed intentId policyResult value degraded =>
      obtain ⟨-, ran, -⟩ := settled
      refine ⟨⟨φ, l, value, rfl, ran.rail, paid.1⟩, events, _, [], done, rfl, ok.timely ?_⟩
      by_contra late
      have ended := ok.late (by simpa using late) begun
      rw [open_] at ended
      cases ended
    | _ => cases done

theorem Consistent.expire_step (consistent : Consistent platform options deliveries events w stages)
    (current : stages (.timer, n) = .timing) :
    Consistent platform options deliveries (events ++ [expiry n])
      (w.update n fun c => { (if c.intent.isSome then c.race none else c) with expired := true })
      (Function.update stages (.timer, n) .timing) := by
  have ok := consistent.cells n
  have grows : Won (w.cells n).raced →
      Won (if (w.cells n).intent.isSome then (w.cells n).race none else w.cells n).raced := by
    intro won
    split_ifs
    · exact race_won won
    · exact won
  refine consistent.beside trivial Part.noConfusion (grows_update grows) rfl rfl
    (Course.unguarded consistent.course rfl (by rw [current]))
    (launched_unguarded consistent.launched rfl (by rw [current]))
    (cells_beside consistent.cells ?_ update_others)
  rw [Function.update_of_ne (by simp), update_own]
  have won : Won (if (w.cells n).intent.isSome then (w.cells n).race none else w.cells n).raced →
      Won (w.cells n).raced := by
    split_ifs
    · intro won
      refine (won_race won).resolve_right ?_
      rintro ⟨-, executed, same, -⟩
      cases same
    · exact id
  have kept : (if (w.cells n).intent.isSome then (w.cells n).race none else w.cells n).intent = (w.cells n).intent ∧
      (if (w.cells n).intent.isSome then (w.cells n).race none else w.cells n).answer = (w.cells n).answer := by
    split_ifs <;> exact ⟨rfl, rfl⟩
  constructor
  · dsimp only
    rw [kept.1]
    exact ok.intent
  · dsimp only
    rw [kept.1]
    exact ok.begun
  · dsimp only
    rw [kept.1]
    intro _ called
    rw [if_pos called]
    exact raced_race
  · rintro ⟨⟩
  · exact fun ended => ⟨(ok.won (won ended)).1, (ok.won (won ended)).2.mono⟩
  · dsimp only
    rw [kept.2]
    exact fun response answered approves => grows (ok.answer response answered approves)

theorem Consistent.step {i : Part × ℕ} {op : StripeOp} {ans : op.Answer}
    (consistent : Consistent platform options deliveries events w stages)
    (allowed : (partMonitor platform options deliveries i.2).allowed (stages i) op)
    (answered : Answers deliveries w i op ans w') :
    ∃ stage, (partMonitor platform options deliveries i.2).step (stages i) op ans stage ∧
      Consistent platform options deliveries (events ++ [(i, ⟨op, ans⟩)]) w' (Function.update stages i stage) := by
  obtain ⟨part, n⟩ := i
  have owns := consistent.owns part n
  cases current : stages (part, n) with
  | handling h =>
    rw [current] at owns allowed
    cases part with
    | handler =>
      obtain ⟨auth, requested, may⟩ := allowed
      exact ⟨_, .handle, consistent.handle_step current requested may answered⟩
    | _ => cases owns
  | waiting =>
    rw [current] at owns allowed
    cases part with
    | execution =>
      obtain rfl : op = .called := allowed
      obtain ⟨own, called⟩ := consistent.call_step current answered
      exact ⟨_, .call own, called⟩
    | _ => cases owns
  | executing φ l =>
    rw [current] at owns allowed
    cases part with
    | execution =>
      cases op with
      | guard op =>
        obtain ⟨own, stepped⟩ := consistent.guard_step current allowed answered
        exact ⟨_, .guard own, stepped⟩
      | settled result =>
        obtain rfl : w' = _ := answered
        exact ⟨_, .settle, consistent.settle_step current allowed.1 allowed.2⟩
      | _ => cases allowed
    | _ => cases owns
  | finished φ l =>
    rw [current] at allowed
    cases allowed
  | timing =>
    rw [current] at owns allowed
    cases part with
    | timer =>
      obtain rfl : op = .expire := allowed
      obtain ⟨-, rfl⟩ := answered
      exact ⟨_, .expire, consistent.expire_step current⟩
    | _ => cases owns

theorem Consistent.start (l : MemorySpendLimiter) :
    Consistent platform options deliveries [] (.start l) fun i => i.1.begun where
  owns part n := by cases part <;> trivial
  course := .start l
  launched n := rfl
  cells n := by
    refine ⟨by rintro intent ⟨⟩, fun begun => absurd rfl begun, by rintro ⟨⟩, ?_, fun won => won.elim, by rintro _ ⟨⟩⟩
    intro _ member
    cases member
  records authId record member := by cases member
  inflight process authId m held := by cases held
  handled n h held := by
    cases held
    refine ⟨by rintro m ⟨⟩, fun won => won.elim, ?_⟩
    intro response member
    cases member

end Steps

section Main
variable (platform : Platform) (options : ℕ → StripeAuthorizationHandlerOptions) (deliveries : ℕ → Delivery)

/-- A delivery's call of the guard has paid: the amount that the network requests was cleared, the executor ran, the
call settled before the timer fired, and the limiter counts the payment. -/
structure Approved (events : StripeEvents) (w : World) (m : ℕ) : Prop where
  amount : ∃ auth pr, (deliveries m).request = some auth ∧ auth.pendingRequest = some pr ∧
    (paymentOf platform options deliveries m).amount.amountMinor = pr.amount
  cleared : (launchOf m (guardEvents events)).Cleared platform (optionsOf options deliveries m).guard
    (paymentOf platform options deliveries m)
  ran : ∃ outcome,
    ((.execution, m), ⟨.guard (.runExecutor (paymentOf platform options deliveries m)), outcome⟩) ∈ events
  inTime : InTime m events
  counted : ∃ request, request.reservationId = (paymentOf platform options deliveries m).id ∧
    request.amountMinor = (paymentOf platform options deliveries m).amount.amountMinor ∧ Kept w.limiter request

variable {platform options deliveries} {events : StripeEvents} {l : MemorySpendLimiter}
  {pool : Pool StripeOp.Answer Thrown (Option StripeHandlerResponse) World (Part × ℕ)} {stages : Part × ℕ → Stage}
  {w : World} {m m' : ℕ}

theorem of_guardEvents {op : Op} {ans : op.Answer} (member : (m, ⟨op, ans⟩) ∈ guardEvents events) :
    ((.execution, m), ⟨.guard op, ans⟩) ∈ events := by
  obtain ⟨⟨⟨part, n⟩, op', ans'⟩, asked, same⟩ := List.mem_filterMap.mp member
  cases part with
  | execution =>
    cases op' with
    | guard op' =>
      cases same
      exact asked
    | _ => cases same
  | _ => cases same

/-- An amount that counts is the one that the network requests. -/
theorem amount_requested (valid : amountValid (paymentOf platform options deliveries m) = true) :
    ∃ auth pr, (deliveries m).request = some auth ∧ auth.pendingRequest = some pr ∧
      (paymentOf platform options deliveries m).amount.amountMinor = pr.amount := by
  cases requested : (deliveries m).request with
  | none =>
    have nothing : paymentOf platform options deliveries m = default := by
      unfold paymentOf
      rw [requested]
    rw [nothing] at valid
    exact absurd valid (by decide +kernel)
  | some auth =>
    have own : (paymentOf platform options deliveries m).amount.amountMinor = amountMinorOf auth := by
      unfold paymentOf
      rw [requested]
      rfl
    have safe : (paymentOf platform options deliveries m).amount.amountMinor.isSafeInteger = true :=
      (Bool.and_eq_true_iff.mp valid).1
    rw [own] at safe
    obtain ⟨pr, pending, amount⟩ := amountMinorOf_safe safe
    exact ⟨auth, pr, rfl, pending, own.trans amount⟩

theorem Consistent.approved (consistent : Consistent platform options deliveries events w stages)
    (won : Won (w.cells m).raced) : Approved platform options deliveries events w m := by
  obtain ⟨⟨φ, l, value, finished, rail, cleared⟩, inTime⟩ := (consistent.cells m).won won
  have phase : phasesOf stages m = φ := by
    unfold phasesOf
    rw [finished]
    rfl
  have launch : l = launchOf m (guardEvents events) := by
    rw [← consistent.launched m, finished]
    rfl
  have told := consistent.course.told m
  have keeps := consistent.course.keeps m
  rw [phase] at told keeps
  have railed : φ.rail ≠ .idle := by
    rw [rail]
    exact Rail.noConfusion
  obtain ⟨payment, outcome, member⟩ := told.ran.mp railed
  obtain rfl := told.paid payment outcome member
  obtain ⟨unreleased, request, fresh⟩ := told.owned railed
  obtain ⟨own, amount, -⟩ := told.took request fresh
  obtain ⟨policy, result, -, admits, -⟩ := cleared.decided
  exact ⟨amount_requested admits.counts, launch ▸ cleared, ⟨outcome, of_guardEvents member⟩, inTime, request, own,
    amount, keeps request fresh unreleased⟩

/-- A delivery's call of the guard has run the executor. -/
def RunsFor (events : StripeEvents) (m : ℕ) : Prop :=
  ∃ payment outcome, ((.execution, m), ⟨.guard (.runExecutor payment), outcome⟩) ∈ events

/-- No two calls run the executor for one authorization. -/
theorem Consistent.alone (consistent : Consistent platform options deliveries events w stages) (runs : RunsFor events m)
    (runs' : RunsFor events m')
    (same : (paymentOf platform options deliveries m).id = (paymentOf platform options deliveries m').id) : m = m' := by
  have held : ∀ {k}, RunsFor events k → (phasesOf stages k).released = false ∧
      ∃ request, (phasesOf stages k).reservation = .fresh request := by
    rintro k ⟨payment, outcome, member⟩
    refine (consistent.course.told k).owned ((consistent.course.told k).ran.mpr ⟨payment, outcome, ?_⟩)
    exact List.mem_filterMap.mpr ⟨_, member, rfl⟩
  obtain ⟨free, request, fresh⟩ := held runs
  obtain ⟨free', request', fresh'⟩ := held runs'
  exact consistent.course.alone m m' request request' fresh free fresh' free' same

theorem paymentOf_id {authId : JsString} (own : authIdOf deliveries m = some authId) :
    (paymentOf platform options deliveries m).id = authId := by
  unfold authIdOf at own
  unfold paymentOf
  cases requested : (deliveries m).request with
  | none =>
    rw [requested] at own
    cases own
  | some auth =>
    rw [requested] at own
    exact Option.some.inj own

end Main

/-- Whatever deliveries come in, in however many processes, and whatever the timers, the stores, the clocks and the
guards' outside do in whatever order: of one authorization, the guard runs the executor for one delivery at most, and
every delivery that answers with an approval answers with that one's, which was paid for in time and is counted. -/
theorem approvals_are_one_payment (platform : Platform) (options : ℕ → StripeAuthorizationHandlerOptions)
    (deliveries : ℕ → Delivery) (l : MemorySpendLimiter) (events : StripeEvents)
    (pool : Pool StripeOp.Answer Thrown (Option StripeHandlerResponse) World (Part × ℕ))
    (run : Run (Answers deliveries) (system platform options deliveries l) events pool) :
    (∀ authId m m', authIdOf deliveries m = some authId → authIdOf deliveries m' = some authId → RunsFor events m →
      RunsFor events m' → m = m') ∧
    ∀ n response, pool.threads (.handler, n) = .done (.ok (some response)) → Approves response →
      ∃ authId m, authIdOf deliveries n = some authId ∧ authIdOf deliveries m = some authId ∧
        Approved platform options deliveries events pool.world m := by
  obtain ⟨stages, consistent, concludes⟩ := run.invariant (fun i => partMonitor platform options deliveries i.2)
    (fun i => i.1.Concluded) (Consistent platform options deliveries) (fun i => program_concludes i.1) (.start l)
    fun _ _ _ _ _ _ _ consistent allowed answered => consistent.step allowed answered
  constructor
  · intro authId m m' own own' runs runs'
    exact consistent.alone runs runs' ((paymentOf_id own).trans (paymentOf_id own').symm)
  · intro n response answered approves
    have concluded := concludes (.handler, n)
    rw [answered] at concluded
    cases current : stages (.handler, n) with
    | handling h =>
      rw [current] at concluded
      have handled := consistent.handled n h current
      rcases concluded approves with won | told
      · obtain ⟨⟨authId, own⟩, raced⟩ := handled.raced won
        exact ⟨authId, n, own, own, consistent.approved raced⟩
      · obtain ⟨authId, own, m, same, won⟩ := handled.heard response told approves
        exact ⟨authId, m, own, same, consistent.approved won⟩
    | _ =>
      rw [current] at concluded
      cases concluded

/-! ### Two deliveries of one authorization -/

namespace Approvals.Sample

def authorization : StripeAuthorization where
  id := "iauth_1"
  currency := "USD"
  created := 1
  authorizationMethod := none
  merchantData := some ⟨none, none, none, some "openai", none, none⟩
  pendingRequest := some ⟨500, "USD", none, none, none, none⟩
  card := none
  cardholder := none

def options (_ : ℕ) : StripeAuthorizationHandlerOptions where
  agentIdFor := none
  category := none
  mandateIdFor := none
  guard := Resolution.paying
  apiVersion := "2026-01-01"
  decisionTimeoutMs := none

def deliveries (_ : ℕ) : Delivery := ⟨0, .ok ⟨authRequest, authorization⟩⟩

def answer (w : World) (n : ℕ) : (op : Op) → op.Answer
  | .reserve request => (w.limiter.reserve request).1
  | .commitSpend _ | .releaseSpend _ => .ok ()
  | .runExecutor _ => executor (w.cells n).expired
  | op => Vaduno.Sample.outside op

/-- Everything works, and no timer fires. -/
def oracle (w : World) (i : Part × ℕ) : (op : StripeOp) → Option (op.Answer × World)
  | .guard op => some (answer w i.2 op, { w with limiter := Denials.Sample.left w.limiter op })
  | .armDeadline => some ((), w.update i.2 fun c => { c with armed := true })
  | .clearDeadline => some ((), w.update i.2 fun c => { c with cleared := true })
  | .readStore authId => some ((w.records authId).head?, w)
  | .joinInflight authId =>
    some (w.inflight 0 authId, if (w.inflight 0 authId).isSome then w else w.setInflight 0 authId (some i.2))
  | .existing delivery => (w.cells delivery).answer.map fun answer => (answer, w)
  | .nowIso => some (.ok "2026-05-28T20:26:40.000Z", w)
  | .execute intent => some ((), w.update i.2 fun c =>
    if c.expired then { c with intent := some intent }.race none else { c with intent := some intent })
  | .race => (w.cells i.2).raced.map fun raced => (raced, w)
  | .writeStore authId record => some ((), w.record authId record)
  | .onDecision .. => some ((), w)
  | .decided answer => some ((), w.update i.2 fun c => { c with answer := some answer })
  | .retire authId => some ((), w.setInflight 0 authId none)
  | .called => (w.cells i.2).intent.map fun intent => (intent, w)
  | .settled result => some ((), w.update i.2 (·.race result.toOption))
  | .expire => none

theorem oracle_agrees {w : World} {i : Part × ℕ} {op : StripeOp} {ans : op.Answer} {w' : World}
    (answered : oracle w i op = some (ans, w')) : Answers deliveries w i op ans w' := by
  cases op with
  | guard op =>
    cases answered
    refine ⟨_, ?_, ?_, rfl⟩
    · cases op <;> first | exact .inl ⟨rfl, rfl⟩ | rfl
    · cases op <;> first | rfl | trivial
  | readStore authId =>
    cases answered
    exact ⟨rfl, fun record found => List.mem_of_mem_head? found⟩
  | joinInflight authId =>
    cases answered
    exact ⟨rfl, rfl⟩
  | existing delivery =>
    obtain ⟨_, found, same⟩ := Option.map_eq_some_iff.mp answered
    cases same
    exact ⟨rfl, found⟩
  | race =>
    obtain ⟨_, found, same⟩ := Option.map_eq_some_iff.mp answered
    cases same
    exact ⟨rfl, found⟩
  | called =>
    obtain ⟨_, found, same⟩ := Option.map_eq_some_iff.mp answered
    cases same
    exact ⟨rfl, found⟩
  | expire => cases answered
  | _ =>
    cases answered
    rfl

/-- The second delivery comes in while the first is being decided. -/
def schedule : List (Part × ℕ) :=
  List.replicate 6 (.handler, 0) ++ List.replicate 4 (.handler, 1) ++ List.replicate 30 (.execution, 0) ++
    List.replicate 8 (.handler, 0) ++ [(.handler, 1)]

def played : Pool StripeOp.Answer Thrown (Option StripeHandlerResponse) World (Part × ℕ) :=
  Pool.attempt oracle schedule (system Vaduno.Sample.platform options deliveries .empty)

def approvedBy (n : ℕ) : Option StripeHandlerResponse :=
  match played.threads (.handler, n) with
  | .done (.ok response) => response
  | _ => none

theorem both_approve : (approvedBy 0).any (Approves ·) = true ∧ (approvedBy 1).any (Approves ·) = true := by
  decide +kernel

/-- The second delivery is answered with the approval of the first, which was paid for. -/
theorem duplicate_approved : ∃ events m, authIdOf deliveries m = some (encode "iauth_1") ∧
    Approved Vaduno.Sample.platform options deliveries events played.world m := by
  obtain ⟨events, run⟩ := Pool.run_attempt @oracle_agrees schedule
    (system Vaduno.Sample.platform options deliveries .empty)
  obtain ⟨response, answered, approves⟩ := (Option.any_eq_true _ _).mp both_approve.2
  have settled : played.threads (.handler, 1) = .done (.ok (some response)) := by
    unfold approvedBy at answered
    split at answered
    · rename_i found
      rw [found, answered]
    · cases answered
  obtain ⟨authId, m, own, same, approved⟩ := (approvals_are_one_payment Vaduno.Sample.platform options deliveries .empty
    events played run).2 1 response settled (of_decide_eq_true approves)
  exact ⟨events, m, same.trans (own.symm.trans rfl), approved⟩

end Approvals.Sample
end Vaduno.Stripe
