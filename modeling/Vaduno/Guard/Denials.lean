import Vaduno.Enforce.LimiterSteps
import Vaduno.Guard.Course
import Vaduno.Guard.Resolution

/-! What a denial leaves in the spend limiter. A call takes its reservation in the middle of the pipeline and
gives it back where a gate after it denies; what throws after it ends in a denial as well. -/
namespace Vaduno.Guard
open Ecma Enforce Mandate Policy Ledger Async Program

/-! ### Records -/

/-- Two limiters hold the same records, in the same order. -/
structure SameRecords (l l' : MemorySpendLimiter) : Prop where
  byId : ∀ key, l'.byId key = l.byId key
  recordsAt : ∀ key, l'.recordsAt key = l.recordsAt key

section Records
variable {l l' : MemorySpendLimiter} {request : ReserveRequest}

theorem SameRecords.refl (l : MemorySpendLimiter) : SameRecords l l := ⟨fun _ => rfl, fun _ => rfl⟩

/-- Whatever is asked for next is answered alike. -/
theorem SameRecords.reserve (same : SameRecords l l') (request : ReserveRequest) :
    (l'.reserve request).1 = (l.reserve request).1 := by
  cases found : l.byId request.reservationId with
  | some r =>
    rw [MemorySpendLimiter.reserve_known found,
      MemorySpendLimiter.reserve_known ((same.byId request.reservationId).trans found)]
  | none =>
    rw [MemorySpendLimiter.reserve_new found,
      MemorySpendLimiter.reserve_new ((same.byId request.reservationId).trans found), SpendMaps.held, SpendMaps.held,
      same.recordsAt]

/-- The second limiter holds one record more, of a request that the first one did not know. -/
structure OneMore (l : MemorySpendLimiter) (request : ReserveRequest) (l' : MemorySpendLimiter) : Prop where
  unknown : l.byId request.reservationId = none
  inserted : l'.toSpendMaps = l.insert (MemorySpendLimiter.record request)

theorem OneMore.found (more : OneMore l request l') :
    l'.byId request.reservationId = some (MemorySpendLimiter.record request) := by
  rw [more.inserted]
  exact Function.update_self ..

theorem OneMore.not_same (more : OneMore l request l') : ¬SameRecords l l' := fun same => by
  have kept := same.byId request.reservationId
  rw [more.found, more.unknown] at kept
  cases kept

theorem OneMore.release (more : OneMore l request l') : SameRecords l (l'.release request.reservationId) := by
  rcases l'.release_cases request.reservationId with ⟨kept, -⟩ | ⟨r, found, -, removed⟩
  · cases kept _ more.found
  · rw [more.found] at found
    cases found
    constructor
    · intro key
      rw [removed, more.inserted]
      by_cases own : key = request.reservationId
      · rw [own, more.unknown]
        exact Function.update_self ..
      · exact (Function.update_of_ne own _ _).trans (Function.update_of_ne own _ _)
    · intro key
      rw [removed, SpendMaps.recordsAt_remove, more.inserted, SpendMaps.recordsAt_insert]
      split_ifs
      · have fresh : MemorySpendLimiter.record request ∉ l.recordsAt key := fun listed => by
          have known := l.indexed.byId_of_mem listed
          rw [show (MemorySpendLimiter.record request).reservationId = request.reservationId from rfl,
            more.unknown] at known
          cases known
        rw [List.erase_append_right _ fresh, List.erase_cons_head, List.append_nil]
      · rfl

end Records

/-! ### A call and its limiter -/

section Spending
variable (platform : Platform) (guard : VadunoGuard) (mode : Mode) (intent : PaymentIntent)

/-- The phases of a call, beside a limiter that works and that nothing else uses. -/
def spending : Monitor Op.Answer (Phase × MemorySpendLimiter) where
  allowed s op := mayAsk platform guard mode intent s.1 op
  step s op ans s' := s'.1 = s.1.advance platform intent op ans ∧ LimiterWorks s.2 () op ans s'.2

/-- What may change the reservation of a call or run its rail. -/
def isSpending : Op → Prop
  | .reserve _ | .releaseSpend _ | .commitSpend _ | .runExecutor _ => True
  | _ => False

/-- What the limiter holds of a call, against what it held before. -/
structure Accounted (l : MemorySpendLimiter) (φ : Phase) (l' : MemorySpendLimiter) : Prop where
  untaken : φ.reservation = .untaken → l' = l
  held : φ.holding = true → ∃ request, φ.reservation = .fresh request ∧ request.reservationId = intent.id ∧
    OneMore l request l'
  idle : φ.holding = false → φ.rail = .idle → SameRecords l l'
  interrupted : φ.interrupted = true → φ.holding = true
  released : φ.released = true → intent.id ≠ [] ∧ φ.reservation ≠ .untaken

end Spending

variable {platform : Platform} {guard : VadunoGuard} {mode : Mode} {intent : PaymentIntent} {φ : Phase}
  {l l' l'' : MemorySpendLimiter}

/-- Where a phase has got to, as far as its reservation is concerned. -/
theorem holding_congr {φ' : Phase} (reservation : φ'.reservation = φ.reservation) (released : φ'.released = φ.released)
    (rail : φ'.rail = φ.rail) : φ'.holding = φ.holding := by
  unfold Phase.holding
  rw [reservation, released, rail]

theorem idle_of_holding (holding : φ.holding = true) : φ.rail = .idle := by
  unfold Phase.holding at holding
  split at holding
  · assumption
  · cases holding

theorem fail_reservation (φ : Phase) : φ.fail.reservation = φ.reservation ∧ φ.fail.released = φ.released ∧
    φ.fail.rail = φ.rail ∧ (φ.fail.interrupted = true → φ.interrupted = true ∨ φ.holding = true) := by
  unfold Phase.fail
  split
  · exact ⟨rfl, rfl, rfl, .inl⟩
  · exact ⟨rfl, rfl, rfl, fun failed => by simpa using failed⟩

theorem moved_other (other : ¬isSpending op) : (φ.moved op ans).reservation = φ.reservation ∧
    (φ.moved op ans).released = φ.released ∧ (φ.moved op ans).rail = φ.rail ∧
      (φ.moved op ans).interrupted = φ.interrupted := by
  unfold Phase.moved
  split
  · exact ⟨rfl, rfl, rfl, rfl⟩
  · exact absurd trivial other
  · exact absurd trivial other
  · exact absurd trivial other
  · exact ⟨rfl, rfl, rfl, rfl⟩

theorem reserving_other (other : ¬isSpending op) : (φ.reserving op ans).reservation = φ.reservation ∧
    (φ.reserving op ans).released = φ.released ∧ (φ.reserving op ans).rail = φ.rail ∧
      (φ.reserving op ans).interrupted = φ.interrupted := by
  unfold Phase.reserving
  split
  · exact ⟨rfl, rfl, rfl, rfl⟩
  · exact ⟨rfl, rfl, rfl, rfl⟩
  · exact absurd trivial other
  · exact ⟨rfl, rfl, rfl, rfl⟩

/-- Anything else leaves the reservation as it is, and interrupts a call only while it holds one. -/
theorem advance_other (other : ¬isSpending op) :
    (φ.advance platform intent op ans).reservation = φ.reservation ∧
      (φ.advance platform intent op ans).released = φ.released ∧
      (φ.advance platform intent op ans).rail = φ.rail ∧
      ((φ.advance platform intent op ans).interrupted = true → φ.interrupted = true ∨ φ.holding = true) := by
  obtain ⟨reservation, released, rail, interrupted⟩ := @moved_other φ op ans other
  by_cases untaken : φ.reservation = .untaken
  · rw [Phase.advance_untaken untaken]
    obtain ⟨reservation, released, rail, interrupted⟩ := @reserving_other φ op ans other
    exact ⟨reservation, released, rail, fun failed => .inl (interrupted ▸ failed)⟩
  · rw [Phase.advance_taken untaken]
    split_ifs
    · obtain ⟨reservation', released', rail', interrupted'⟩ := fail_reservation (φ.moved op ans)
      refine ⟨reservation'.trans reservation, released'.trans released, rail'.trans rail, fun failed => ?_⟩
      rw [← holding_congr reservation released rail, ← interrupted]
      exact interrupted' failed
    · exact ⟨reservation, released, rail, fun failed => .inl (interrupted ▸ failed)⟩

namespace Accounted

theorem start (l : MemorySpendLimiter) : Accounted intent l (.before inside) l where
  untaken _ := rfl
  held holding := by cases holding
  idle _ _ := .refl l
  interrupted failed := by cases failed
  released given := by cases given

theorem other (accounted : Accounted intent l φ l') (other : ¬isSpending op) :
    Accounted intent l (φ.advance platform intent op ans) l' := by
  obtain ⟨reservation, released, rail, interrupted⟩ := @advance_other platform intent φ op ans other
  have holding := holding_congr reservation released rail
  constructor
  · rw [reservation]
    exact accounted.untaken
  · rw [holding, reservation]
    exact accounted.held
  · rw [holding, rail]
    exact accounted.idle
  · rw [holding]
    exact fun failed => (interrupted failed).elim accounted.interrupted id
  · rw [released, reservation]
    exact accounted.released

theorem reserve {request : ReserveRequest} (accounted : Accounted intent l φ l')
    (allowed : mayAsk platform guard mode intent φ (.reserve request)) :
    Accounted intent l (φ.advance platform intent (.reserve request) (l'.reserve request).1)
      (l'.reserve request).2 := by
  obtain ⟨-, untaken, own, -⟩ := allowed
  obtain rfl := accounted.untaken untaken
  have unreleased : φ.released = false := Bool.eq_false_iff.mpr fun given => (accounted.released given).2 untaken
  have calm : ¬φ.interrupted = true := fun failed => by
    have holding := accounted.interrupted failed
    rw [Phase.holding, untaken] at holding
    cases holding
  rw [Phase.advance_untaken untaken]
  change Accounted intent l' { φ with reservation := reservationOf request (l'.reserve request).1 } _
  rcases l'.reserve_cases request with ⟨unchanged, other⟩ | ⟨unknown, -, fresh, inserted⟩
  · have unheld : ∀ taken, reservationOf request (l'.reserve request).1 ≠ .fresh taken := by
      intro taken same
      unfold reservationOf at same
      split at same
      · rename_i reservationId state answered
        obtain ⟨rfl, ⟨-, rfl, -⟩ | ⟨impossible, -⟩⟩ := l'.reserve_answer answered
        · exact other answered
        · cases impossible
      · cases same
      · cases same
      · cases same
    rw [unchanged]
    constructor
    · exact fun _ => rfl
    · intro holding
      unfold Phase.holding at holding
      split at holding
      · rename_i same _ _
        exact absurd same (unheld _)
      · cases holding
    · exact fun _ _ => .refl l'
    · exact fun failed => absurd failed calm
    · exact fun given => by simp [unreleased] at given
  · rw [fresh]
    constructor
    · rintro ⟨⟩
    · exact fun _ => ⟨request, rfl, own, unknown, inserted⟩
    · intro holding idle
      simp only [Phase.holding, reservationOf, unreleased, show φ.rail = .idle from idle] at holding
      cases holding
    · exact fun failed => absurd failed calm
    · exact fun given => by simp [unreleased] at given

theorem release (accounted : Accounted intent l φ l')
    (allowed : mayAsk platform guard mode intent φ (.releaseSpend reservationId)) :
    Accounted intent l (φ.advance platform intent (.releaseSpend reservationId) answered)
      (l'.release reservationId) := by
  obtain ⟨-, holding, calm, rfl, named⟩ := allowed
  obtain ⟨request, fresh, own, more⟩ := accounted.held holding
  have taken : φ.reservation ≠ .untaken := by
    rw [fresh]
    exact Reservation.noConfusion
  rw [Phase.advance_taken taken, if_neg (by exact Bool.false_ne_true)]
  change Accounted intent l { φ with released := true } _
  have given : ({ φ with released := true } : Phase).holding = false := by
    unfold Phase.holding
    rw [fresh]
  constructor
  · exact fun untaken => absurd untaken taken
  · rw [given]
    rintro ⟨⟩
  · rw [← own]
    exact fun _ _ => more.release
  · intro failed
    rw [show φ.interrupted = true from failed] at calm
    cases calm
  · exact fun _ => ⟨named, taken⟩

/-- Once the rail has run, nothing is said of the records. -/
theorem ran {φ' : Phase} {outcome : Throwing JsValue} (accounted : Accounted intent l φ l')
    (rail : φ'.rail = .ran outcome) (taken : φ'.reservation ≠ .untaken) (released : φ'.released = φ.released)
    (calm : φ'.interrupted = false) : Accounted intent l φ' l'' := by
  have unheld : φ'.holding ≠ true := fun holding => by
    rw [idle_of_holding holding] at rail
    cases rail
  constructor
  · exact fun untaken => absurd untaken taken
  · exact fun holding => absurd holding unheld
  · intro _ idle
    rw [idle] at rail
    cases rail
  · rw [calm]
    rintro ⟨⟩
  · rw [released]
    exact fun given => ⟨(accounted.released given).1, taken⟩

theorem step (s s' : Phase × MemorySpendLimiter) (accounted : Accounted intent l s.1 s.2)
    (allowed : mayAsk platform guard mode intent s.1 op)
    (moved : (spending platform guard mode intent).step s op ans s') : Accounted intent l s'.1 s'.2 := by
  obtain ⟨φ, l'⟩ := s
  obtain ⟨φ', l''⟩ := s'
  obtain ⟨rfl, works⟩ := moved
  dsimp only at works ⊢ accounted allowed
  by_cases spends : isSpending op
  · cases op with
    | reserve request =>
      obtain ⟨rfl, rfl⟩ := works
      exact accounted.reserve allowed
    | releaseSpend reservationId =>
      obtain ⟨-, rfl⟩ := works
      exact accounted.release allowed
    | commitSpend reservationId =>
      obtain ⟨-, -, -, ⟨request, fresh⟩, value, rail⟩ := allowed
      have taken : φ.reservation ≠ .untaken := by
        rw [fresh]
        exact Reservation.noConfusion
      have calm : φ.interrupted = false := Bool.eq_false_iff.mpr fun failed => by
        rw [idle_of_holding (accounted.interrupted failed)] at rail
        cases rail
      rw [Phase.advance_taken taken, if_neg (by exact Bool.false_ne_true)]
      exact accounted.ran rail taken rfl calm
    | runExecutor payment =>
      obtain ⟨-, holding, calm, -⟩ := allowed
      obtain ⟨request, fresh, -⟩ := accounted.held holding
      have taken : φ.reservation ≠ .untaken := by
        rw [fresh]
        exact Reservation.noConfusion
      rw [Phase.advance_taken taken]
      split_ifs
      · exact accounted.ran rfl taken rfl calm
      · exact accounted.ran rfl taken rfl calm
    | _ => cases spends
  · have kept : l'' = l' := by
      cases op <;> first | exact works | exact absurd trivial spends
    rw [kept]
    exact accounted.other spends

end Accounted

/-! ### Denials -/

/-- A call that was denied before its rail ran leaves the limiter as it was exactly where nothing made it throw while
it held a reservation of its own, and it took none under an empty id; and then whatever is asked for next is answered
as it would have been without the call. -/
def BudgetReturned (intent : PaymentIntent) (l : MemorySpendLimiter) (s : Phase × MemorySpendLimiter)
    (r : Throwing GuardResult) : Prop :=
  (∃ intentId policyResult, r = .ok (.denied intentId policyResult)) → s.1.rail = .idle →
    (SameRecords l s.2 ↔
      s.1.interrupted = false ∧ (intent.id = [] → ∀ request, s.1.reservation ≠ .fresh request)) ∧
    (SameRecords l s.2 → ∀ request, (s.2.reserve request).1 = (l.reserve request).1)

theorem same_iff (accounted : Accounted intent l φ l') (idle : φ.rail = .idle) :
    SameRecords l l' ↔ φ.holding = false := by
  constructor
  · intro same
    by_contra holding
    obtain ⟨request, -, -, more⟩ := accounted.held (by simpa using holding)
    exact more.not_same same
  · exact fun free => accounted.idle free idle

theorem holding_iff (accounted : Accounted intent l φ l') (idle : φ.rail = .idle)
    (unspent : φ.holding = true → intent.id = [] ∨ φ.interrupted = true) :
    φ.holding = false ↔ φ.interrupted = false ∧ (intent.id = [] → ∀ request, φ.reservation ≠ .fresh request) := by
  constructor
  · intro free
    refine ⟨?_, ?_⟩
    · by_contra failed
      rw [accounted.interrupted (by simpa using failed)] at free
      cases free
    · rintro nameless request fresh
      have kept : φ.released = false := Bool.eq_false_iff.mpr fun given => (accounted.released given).1 nameless
      simp [Phase.holding, fresh, kept, idle] at free
  · rintro ⟨calm, nameless⟩
    by_contra holding
    rw [Bool.not_eq_false] at holding
    rcases unspent holding with empty | failed
    · obtain ⟨request, fresh, -⟩ := accounted.held holding
      exact nameless empty request fresh
    · rw [calm] at failed
      cases failed

/-- A limiter that works answers for the reservation it was asked for. -/
theorem own_of_works {i : ι} (works : LimiterWorks l i op ans l') : AnsweredOwn op ans := by
  cases op with
  | reserve request =>
    rcases ans with thrown | (⟨reservationId, replayed, state⟩ | violation)
    · trivial
    · exact (l.reserve_answer works.1.symm).1
    · trivial
  | _ => trivial

theorem denials_return_budget (platform : Platform) (guard : VadunoGuard) (mode : Mode) (submitted : Submitted)
    (intent : PaymentIntent) (pays : ∀ intake, submitted.enter platform = .ok intake → intake.Pays intent)
    (l : MemorySpendLimiter) : (guard.submit platform mode submitted).Meets (spending platform guard mode intent)
      (BudgetReturned intent l) (.before false, l) := by
  unfold VadunoGuard.submit
  cases read : submitted.enter platform with
  | error e =>
    rintro ⟨intentId, policyResult, denied⟩
    cases denied
  | ok intake =>
    refine (Meets.simulate (run_meets (pays intake read)) (fun φ s => s.1 = φ ∧ Accounted intent l φ s.2)
      ⟨rfl, .start l⟩ ?_ ?_).mono ?_
    · rintro φ ⟨_, l'⟩ op ⟨rfl, -⟩ allowed
      exact allowed
    · rintro φ ⟨_, l'⟩ op ans ⟨φ', l''⟩ ⟨rfl, accounted⟩ allowed moved
      refine ⟨φ', ⟨moved.1, ?_⟩, rfl, Accounted.step (_, l') (φ', l'') accounted allowed moved⟩
      exact own_of_works moved.2
    · rintro ⟨_, l'⟩ r ⟨φ, ⟨rfl, accounted⟩, settled⟩ ⟨intentId, policyResult, rfl⟩ idle
      exact ⟨(same_iff accounted idle).trans (holding_iff accounted idle settled.2), fun same => same.reserve⟩

/-! ### A row that is not taken -/

namespace Denials.Sample
open Resolution

/-- Where the limiter works and nothing records that an execution has started. -/
def answer (l : MemorySpendLimiter) : (op : Op) → op.Answer
  | .reserve request => (l.reserve request).1
  | .commitSpend _ | .releaseSpend _ => .ok ()
  | .append .executionStarted _ _ => .error (.error "ledger unavailable")
  | op => Vaduno.Sample.outside op

def left (l : MemorySpendLimiter) : Op → MemorySpendLimiter
  | .reserve request => (l.reserve request).2
  | .commitSpend reservationId => l.commit reservationId
  | .releaseSpend reservationId => l.release reservationId
  | _ => l

def payer : PaymentIntent := { Vaduno.Sample.intent "i-1" with mandateId := none }

def oracle (s : Phase × MemorySpendLimiter) (op : Op) : op.Answer × (Phase × MemorySpendLimiter) :=
  (answer s.2 op, s.1.advance Vaduno.Sample.platform payer op (answer s.2 op), left s.2 op)

theorem oracle_agrees (mode : Mode) (s : Phase × MemorySpendLimiter) (op : Op) :
    (spending Vaduno.Sample.platform paying mode payer).step s op (oracle s op).1 (oracle s op).2 := by
  refine ⟨rfl, ?_⟩
  cases op <;> first | exact ⟨rfl, rfl⟩ | rfl

def denied : Throwing GuardResult × (Phase × MemorySpendLimiter) :=
  (call (.cloned payment)).follow oracle (.before false, .empty)

theorem denied_holding : denied.1.toOption.map isDenied = some true ∧ denied.2.1.holding = true ∧
    (denied.2.2.byId "i-1").isSome = true := by
  decide +kernel

theorem payment_returned : (call (.cloned payment)).Meets (spending Vaduno.Sample.platform paying .execute payer)
    (BudgetReturned payer .empty) (.before false, .empty) :=
  denials_return_budget Vaduno.Sample.platform paying .execute (.cloned payment) payer
    (by rintro _ ⟨⟩ _ _ ⟨⟩; rfl) .empty

/-- The call is denied before its rail runs, and its reservation stays. -/
theorem denial_keeps_reservation : ¬∀ (platform : Platform) (guard : VadunoGuard) (mode : Mode)
    (submitted : Submitted) (intent : PaymentIntent) (l : MemorySpendLimiter),
    (∀ intake, submitted.enter platform = .ok intake → intake.Pays intent) →
    (guard.submit platform mode submitted).Meets (spending platform guard mode intent)
      (fun s r => (∃ intentId policyResult, r = .ok (.denied intentId policyResult)) → s.1.rail = .idle →
        SameRecords l s.2) (.before false, l) := by
  intro claimed
  obtain ⟨result, holding, known⟩ := denied_holding
  have returned : (∃ intentId policyResult, denied.1 = .ok (.denied intentId policyResult)) →
      denied.2.1.rail = .idle → SameRecords .empty denied.2.2 :=
    (claimed Vaduno.Sample.platform paying .execute (.cloned payment) payer .empty
      (by rintro _ ⟨⟩ _ _ ⟨⟩; rfl)).follow (oracle_agrees .execute)
  have denies : ∃ intentId policyResult, denied.1 = .ok (.denied intentId policyResult) := by
    cases outcome : denied.1 with
    | error e =>
      rw [outcome] at result
      cases result
    | ok answered =>
      rw [outcome] at result
      cases answered with
      | denied intentId policyResult => exact ⟨intentId, policyResult, rfl⟩
      | _ => cases result
  have same := (returned denies (idle_of_holding holding)).byId "i-1"
  rw [same] at known
  cases known

end Denials.Sample
end Vaduno.Guard
