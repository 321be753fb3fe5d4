import Vaduno.Enforce.LimiterSteps
import Vaduno.Guard.Denials

/-! Which calls run a rail when any number of them share a limiter, and what the others say of themselves. A
reservation that a call took itself stays until that call gives it back, and a call that gave it back runs nothing. -/
namespace Vaduno.Guard
open Ecma Enforce Mandate Policy Ledger Async Program

variable {platform : Platform} {guard : VadunoGuard} {mode : Mode} {intent : PaymentIntent} {φ : Phase}

/-! ### One call -/

/-- A reservation is new where the limiter said so. -/
theorem fresh_of_reservationOf {request taken : ReserveRequest} {answered : Throwing ReserveResult}
    (fresh : reservationOf request answered = .fresh taken) :
    taken = request ∧ ∃ reservationId state, answered = .ok (.ok reservationId false state) := by
  unfold reservationOf at fresh
  split at fresh <;> cases fresh
  exact ⟨rfl, _, _, rfl⟩

theorem fresh_of_holding (holding : φ.holding = true) :
    φ.released = false ∧ ∃ request, φ.reservation = .fresh request := by
  unfold Phase.holding at holding
  split at holding
  · rename_i request fresh unreleased _
    exact ⟨unreleased, request, fresh⟩
  · cases holding

instance : Inhabited PaymentIntent := ⟨[], [], ⟨[], none⟩, ⟨0, []⟩, none, [], none, none, none⟩

/-- A call is about one intent, if it is about any. -/
theorem submit_meets (platform : Platform) (guard : VadunoGuard) (mode : Mode) (submitted : Submitted) :
    ∃ intent, (guard.submit platform mode submitted).Meets (monitor platform guard mode intent)
      (Settled mode intent) (.before false) := by
  unfold VadunoGuard.submit
  cases submitted.enter platform with
  | error e => exact ⟨default, .inl rfl, fun holding => by cases holding⟩
  | ok intake =>
    have paid : ∃ intent, intake.Pays intent := by
      cases intake with
      | sound received payment => exact ⟨payment, by rintro _ _ ⟨⟩; rfl⟩
      | _ => exact ⟨default, by rintro _ _ ⟨⟩⟩
    obtain ⟨intent, pays⟩ := paid
    exact ⟨intent, run_meets pays⟩

/-- What an executor throws has a text, and once it has run the clock can be written down. -/
def Reports (ran : Prop) : (op : Op) → op.Answer → Prop
  | .runExecutor _, .error err => ∃ text, errMsg err = .ok text
  | .nowIso, text => ran → ∃ t, text = .ok t
  | _, _ => True

/-- After the rail, only the clock can throw. -/
theorem calm_after_rail {op : Op} {ans : op.Answer} (allowed : mayAsk platform guard mode intent φ op)
    (ran : φ.rail ≠ .idle) (reports : Reports (φ.rail ≠ .idle) op ans) : φ.throws platform intent op ans = false := by
  have unheld : φ.holding ≠ true := fun holding => ran (idle_of_holding holding)
  cases op with
  | append type data refs =>
    cases type with
    | executionStarted => exact absurd allowed unheld
    | mandateConsumed | mandateReplayed => exact absurd allowed ran
    | _ => rfl
  | runExecutor payment => exact absurd allowed.2.1 unheld
  | nowIso =>
    obtain ⟨t, rfl⟩ := reports ran
    rfl
  | now =>
    have present := allowed.resolve_left ran
    change Progress.throws platform intent φ.use .now ans = false
    unfold Progress.throws
    dsimp only
    split
    · rename_i state absent
      exact absurd absent (present state)
    · rfl
  | mandateState mandateId => exact absurd allowed ran
  | getClaim mandateId useKey => exact absurd allowed.2.1 ran
  | claimUse claim maxUses => exact absurd allowed.2.1 ran
  | _ => rfl

theorem moved_rail {op : Op} {ans : op.Answer} (other : ∀ payment, op ≠ .runExecutor payment) :
    (φ.moved op ans).rail = φ.rail := by
  unfold Phase.moved
  split <;> first | rfl | exact absurd rfl (other _)

theorem unreported_fail (reported : φ.unreported = false) (idle : φ.rail = .idle) : φ.fail.unreported = false := by
  rw [Phase.fail, idle]
  exact reported

theorem reported_step {op : Op} {ans : op.Answer} (allowed : mayAsk platform guard mode intent φ op)
    (reported : φ.unreported = false) (reports : Reports (φ.rail ≠ .idle) op ans) :
    (φ.advance platform intent op ans).unreported = false := by
  by_cases untaken : φ.reservation = .untaken
  · rw [Phase.advance_untaken untaken]
    unfold Phase.reserving
    split <;> exact reported
  · have moved : (φ.moved op ans).unreported = false := by
      unfold Phase.moved
      split <;> exact reported
    rw [Phase.advance_taken untaken]
    split_ifs with throws
    · by_cases runs : ∃ payment, op = .runExecutor payment
      · obtain ⟨payment, rfl⟩ := runs
        cases ans with
        | ok value => cases throws
        | error err =>
          obtain ⟨text, told⟩ := reports
          change isError (errMsg err) = true at throws
          rw [told] at throws
          cases throws
      · have other : ∀ payment, op ≠ .runExecutor payment := fun payment same => runs ⟨payment, same⟩
        by_cases idle : φ.rail = .idle
        · exact unreported_fail moved ((moved_rail other).trans idle)
        · rw [calm_after_rail allowed idle reports] at throws
          cases throws
    · exact moved

/-! ### Calls that share a limiter -/

section Sharing
variable {ι : Type} {events : List (ι × Event Op.Answer)} {e : ι × Event Op.Answer} {i j : ι}
  {l l' : MemorySpendLimiter} {request : ReserveRequest} {op : Op} {ans : op.Answer}

/-- The limiter answered the call that the reservation is new. -/
def Took (events : List (ι × Event Op.Answer)) (i : ι) (request : ReserveRequest) : Prop :=
  ∃ state, (i, ⟨.reserve request, .ok (.ok request.reservationId false state)⟩) ∈ events

/-- The call invoked its executor. -/
def RanRail (events : List (ι × Event Op.Answer)) (i : ι) : Prop :=
  ∃ payment outcome, (i, ⟨.runExecutor payment, outcome⟩) ∈ events

theorem Took.mono (took : Took events i request) : Took (events ++ [e]) i request := by
  obtain ⟨state, member⟩ := took
  exact ⟨state, List.mem_append_left _ member⟩

theorem ranRail_append : RanRail (events ++ [(j, ⟨op, ans⟩)]) i ↔
    RanRail events i ∨ j = i ∧ ∃ payment, op = .runExecutor payment := by
  constructor
  · rintro ⟨payment, outcome, member⟩
    rcases List.mem_append.mp member with earlier | last
    · exact .inl ⟨payment, outcome, earlier⟩
    · cases List.mem_singleton.mp last
      exact .inr ⟨rfl, payment, rfl⟩
  · rintro (⟨payment, outcome, member⟩ | ⟨rfl, payment, rfl⟩)
    · exact ⟨payment, outcome, List.mem_append_left _ member⟩
    · exact ⟨payment, ans, List.mem_append_right _ (List.mem_singleton.mpr rfl)⟩

/-- A record stays until its id is released. -/
theorem kept_answered (kept : Kept l request) (answered : LimiterAnswers l i op ans l')
    (other : ∀ reservationId, op = .releaseSpend reservationId → request.reservationId ≠ reservationId) :
    Kept l' request := by
  unfold LimiterAnswers at answered
  split at answered
  · rcases answered with ⟨-, rfl⟩ | ⟨-, rfl | rfl⟩
    · exact kept.reserve _
    · exact kept
    · exact kept.reserve _
  · rcases answered with ⟨-, rfl⟩ | ⟨-, rfl | rfl⟩
    · exact kept.commit _
    · exact kept
    · exact kept.commit _
  · rcases answered with ⟨-, rfl⟩ | ⟨-, rfl | rfl⟩
    · exact kept.release (other _ rfl)
    · exact kept
    · exact kept.release (other _ rfl)
  · rw [answered]
    exact kept

/-- A new reservation is one whose id had no record, and it has one now. -/
theorem took_answered {reservationId : JsString} {state : Option ReservationState}
    (answered : LimiterAnswers l i (.reserve request) (.ok (.ok reservationId false state)) l') :
    reservationId = request.reservationId ∧ l.byId request.reservationId = none ∧ Kept l' request := by
  rcases answered with ⟨same, rfl⟩ | ⟨⟨_, failed⟩, -⟩
  · obtain ⟨own, ⟨-, -, absent, inserted⟩ | ⟨impossible, -⟩⟩ := l.reserve_answer same.symm
    · refine ⟨own, absent, .reserved, ?_⟩
      rw [inserted]
      exact Function.update_self ..
    · cases impossible
  · cases failed

/-- A limiter that answers, answers for the reservation it was asked for. -/
theorem own_of_answered (answered : LimiterAnswers l i op ans l') : AnsweredOwn op ans := by
  cases op with
  | reserve request =>
    rcases ans with thrown | (⟨reservationId, replayed, state⟩ | violation)
    · trivial
    · rcases answered with ⟨same, -⟩ | ⟨⟨_, failed⟩, -⟩
      · exact (l.reserve_answer same.symm).1
      · cases failed
    · trivial
  | _ => trivial

/-- What a call does to its reservation and its rail. -/
inductive Spends (intent : PaymentIntent) (φ : Phase) : (op : Op) → op.Answer → Phase → Prop
  | reserve {request : ReserveRequest} {ans : Op.Answer (.reserve request)} (untaken : φ.reservation = .untaken)
      (own : request.reservationId = intent.id) (amount : request.amountMinor = intent.amount.amountMinor) :
      Spends intent φ (.reserve request) ans { φ with reservation := reservationOf request ans }
  | release {reservationId : JsString} {ans : Op.Answer (.releaseSpend reservationId)} (holding : φ.holding = true)
      (own : reservationId = intent.id) : Spends intent φ (.releaseSpend reservationId) ans { φ with released := true }
  | commit {reservationId : JsString} {ans : Op.Answer (.commitSpend reservationId)}
      (own : reservationId = intent.id) (unreleased : φ.released = false)
      (fresh : ∃ request, φ.reservation = .fresh request) :
      Spends intent φ (.commitSpend reservationId) ans { φ with committed := true }
  | run {outcome : Throwing JsValue} {φ' : Phase} (holding : φ.holding = true)
      (reservation : φ'.reservation = φ.reservation) (released : φ'.released = φ.released)
      (committed : φ'.committed = φ.committed) (rail : φ'.rail = .ran outcome) :
      Spends intent φ (.runExecutor intent) outcome φ'
  | other {op : Op} {ans : op.Answer} {φ' : Phase} (other : ¬isSpending op)
      (reservation : φ'.reservation = φ.reservation) (released : φ'.released = φ.released)
      (committed : φ'.committed = φ.committed) (rail : φ'.rail = φ.rail) : Spends intent φ op ans φ'

theorem committed_fail (φ : Phase) : φ.fail.committed = φ.committed := by
  unfold Phase.fail
  split <;> rfl

theorem advance_uncommitted (other : ∀ reservationId, op ≠ .commitSpend reservationId) :
    (φ.advance platform intent op ans).committed = φ.committed := by
  have moved : (φ.moved op ans).committed = φ.committed := by
    unfold Phase.moved
    split <;> first | rfl | exact absurd rfl (other _)
  unfold Phase.advance
  split
  · unfold Phase.reserving
    split <;> rfl
  · split_ifs
    · rw [committed_fail, moved]
    · exact moved

theorem spends_of_allowed (allowed : mayAsk platform guard mode intent φ op) :
    Spends intent φ op ans (φ.advance platform intent op ans) := by
  have taken : ∀ {request}, φ.reservation = .fresh request → φ.reservation ≠ .untaken := fun fresh => by
    rw [fresh]
    exact Reservation.noConfusion
  by_cases spends : isSpending op
  · cases op with
    | reserve request =>
      obtain ⟨-, untaken, own, amount⟩ := allowed
      rw [Phase.advance_untaken untaken]
      exact .reserve untaken own amount
    | releaseSpend reservationId =>
      obtain ⟨-, holding, -, own, -⟩ := allowed
      obtain ⟨request, fresh⟩ := (fresh_of_holding holding).2
      rw [Phase.advance_taken (taken fresh), if_neg (by exact Bool.false_ne_true)]
      exact .release holding own
    | commitSpend reservationId =>
      obtain ⟨-, own, unreleased, ⟨request, fresh⟩, -⟩ := allowed
      rw [Phase.advance_taken (taken fresh), if_neg (by exact Bool.false_ne_true)]
      exact .commit own unreleased ⟨request, fresh⟩
    | runExecutor payment =>
      obtain ⟨-, holding, -, -, rfl⟩ := allowed
      obtain ⟨request, fresh⟩ := (fresh_of_holding holding).2
      rw [Phase.advance_taken (taken fresh)]
      split_ifs
      · exact .run holding rfl rfl rfl rfl
      · exact .run holding rfl rfl rfl rfl
    | _ => cases spends
  · obtain ⟨reservation, released, rail, -⟩ := @advance_other platform intent φ op ans spends
    refine .other spends reservation released (advance_uncommitted ?_) rail
    rintro reservationId rfl
    exact spends trivial

/-- What the events tell of a call. -/
structure Told (intent : PaymentIntent) (events : List (ι × Event Op.Answer)) (i : ι) (φ : Phase) : Prop where
  took : ∀ request, φ.reservation = .fresh request → request.reservationId = intent.id ∧
    request.amountMinor = intent.amount.amountMinor ∧ Took events i request
  ran : φ.rail ≠ .idle ↔ RanRail events i
  owned : φ.rail ≠ .idle → φ.released = false ∧ ∃ request, φ.reservation = .fresh request
  paid : ∀ payment outcome, (i, ⟨.runExecutor payment, outcome⟩) ∈ events → payment = intent

namespace Told

theorem start : Told intent ([] : List (ι × Event Op.Answer)) i (.before false) where
  took _ fresh := by cases fresh
  ran := ⟨fun ran => absurd rfl ran, fun ⟨_, _, member⟩ => by cases member⟩
  owned ran := absurd rfl ran
  paid _ _ member := by cases member

theorem took_mono (told : Told intent events i φ) (request : ReserveRequest) (fresh : φ.reservation = .fresh request) :
    request.reservationId = intent.id ∧ request.amountMinor = intent.amount.amountMinor ∧
      Took (events ++ [e]) i request := by
  obtain ⟨own, amount, took⟩ := told.took request fresh
  exact ⟨own, amount, took.mono⟩

/-- What does not run the call's rail changes neither what is told of the rail nor of the payment. -/
theorem ran_mono (told : Told intent events i φ) (other : j = i → ∀ payment, op ≠ .runExecutor payment) :
    (φ.rail ≠ .idle ↔ RanRail (events ++ [(j, ⟨op, ans⟩)]) i) ∧
      ∀ payment outcome, (i, ⟨.runExecutor payment, outcome⟩) ∈ events ++ [(j, ⟨op, ans⟩)] → payment = intent := by
  constructor
  · rw [ranRail_append, told.ran]
    refine ⟨.inl, fun either => either.resolve_right ?_⟩
    rintro ⟨same, payment, run⟩
    exact other same payment run
  · intro payment outcome member
    rcases List.mem_append.mp member with earlier | last
    · exact told.paid payment outcome earlier
    · cases List.mem_singleton.mp last
      exact absurd rfl (other rfl payment)

/-- What another call does changes nothing. -/
theorem others (told : Told intent events i φ) (other : i ≠ j) : Told intent (events ++ [(j, ⟨op, ans⟩)]) i φ := by
  obtain ⟨ran, paid⟩ := @ran_mono _ _ _ _ i j op ans told fun same => absurd same.symm other
  exact ⟨told.took_mono, ran, told.owned, paid⟩

theorem step {φ' : Phase} (told : Told intent events i φ) (spends : Spends intent φ op ans φ')
    (answered : AnsweredOwn op ans) : Told intent (events ++ [(i, ⟨op, ans⟩)]) i φ' := by
  cases spends with
  | @reserve request ans untaken own amount =>
    have idle : φ.rail = .idle := by
      by_contra ran
      obtain ⟨-, _, fresh⟩ := told.owned ran
      rw [untaken] at fresh
      cases fresh
    obtain ⟨ran, paid⟩ := @ran_mono _ _ _ _ i i (.reserve request) ans told fun _ _ => Op.noConfusion
    refine ⟨?_, ran, fun ran => absurd idle ran, paid⟩
    intro taken fresh
    obtain ⟨rfl, reservationId, state, rfl⟩ := fresh_of_reservationOf fresh
    obtain rfl : reservationId = _ := answered
    exact ⟨own, amount, state, List.mem_append_right _ (List.mem_singleton.mpr rfl)⟩
  | @release reservationId ans holding own =>
    obtain ⟨ran, paid⟩ := @ran_mono _ _ _ _ i i (.releaseSpend reservationId) ans told fun _ _ => Op.noConfusion
    exact ⟨told.took_mono, ran, fun ran => absurd (idle_of_holding holding) ran, paid⟩
  | @commit reservationId ans own unreleased fresh =>
    obtain ⟨ran, paid⟩ := @ran_mono _ _ _ _ i i (.commitSpend reservationId) ans told fun _ _ => Op.noConfusion
    exact ⟨told.took_mono, ran, told.owned, paid⟩
  | run holding reservation released committed rail =>
    constructor
    · rw [reservation]
      exact told.took_mono
    · rw [rail, ranRail_append]
      exact ⟨fun _ => .inr ⟨rfl, intent, rfl⟩, fun _ => Rail.noConfusion⟩
    · rw [reservation, released]
      exact fun _ => fresh_of_holding holding
    · intro payment outcome member
      rcases List.mem_append.mp member with earlier | last
      · exact told.paid payment outcome earlier
      · cases List.mem_singleton.mp last
        rfl
  | other other reservation released committed rail =>
    obtain ⟨ran, paid⟩ := @ran_mono _ _ _ _ i i op ans told (by rintro - payment rfl; exact other trivial)
    constructor
    · rw [reservation]
      exact told.took_mono
    · rw [rail]
      exact ran
    · rw [rail, released, reservation]
      exact told.owned
    · exact paid

end Told

/-- A reservation of its own is in the limiter as long as the call keeps it. -/
def Keeps (l : MemorySpendLimiter) (φ : Phase) : Prop :=
  ∀ request, φ.reservation = .fresh request → φ.released = false → Kept l request

theorem Keeps.step {φ' : Phase} (keeps : Keeps l φ) (spends : Spends intent φ op ans φ')
    (answered : LimiterAnswers l i op ans l') : Keeps l' φ' := by
  intro request fresh unreleased
  cases spends with
  | reserve untaken own amount =>
    obtain ⟨rfl, reservationId, state, rfl⟩ := fresh_of_reservationOf fresh
    exact (took_answered answered).2.2
  | release holding own => cases unreleased
  | commit own free held => exact kept_answered (keeps request fresh unreleased) answered fun _ => Op.noConfusion
  | run holding reservation released committed rail =>
    rw [reservation] at fresh
    rw [released] at unreleased
    exact kept_answered (keeps request fresh unreleased) answered fun _ => Op.noConfusion
  | other other reservation released committed rail =>
    rw [reservation] at fresh
    rw [released] at unreleased
    refine kept_answered (keeps request fresh unreleased) answered ?_
    rintro reservationId rfl
    exact absurd trivial other

/-- A reservation is new to the call only where its id had no record. -/
theorem fresh_step {φ' : Phase} (spends : Spends intent φ op ans φ') (answered : LimiterAnswers l i op ans l')
    (fresh : φ'.reservation = .fresh request) (unreleased : φ'.released = false) :
    φ.reservation = .fresh request ∧ φ.released = false ∨ l.byId intent.id = none := by
  cases spends with
  | reserve untaken own amount =>
    obtain ⟨rfl, reservationId, state, rfl⟩ := fresh_of_reservationOf fresh
    rw [← own]
    exact .inr (took_answered answered).2.1
  | release holding own => cases unreleased
  | commit own free held => exact .inl ⟨fresh, unreleased⟩
  | run holding reservation released committed rail => exact .inl ⟨reservation ▸ fresh, released ▸ unreleased⟩
  | other other reservation released committed rail => exact .inl ⟨reservation ▸ fresh, released ▸ unreleased⟩

/-- Everything that an executor throws, and every clock that is read after an executor has run, has a text. -/
def Reported (events : List (ι × Event Op.Answer)) : Prop :=
  ∀ earlier i op ans later, events = earlier ++ (i, ⟨op, ans⟩) :: later → Reports (RanRail earlier i) op ans

/-- An executor is invoked only by a call whose own reservation was answered as new, for the id of the payment. -/
def RunsOnOwn (events : List (ι × Event Op.Answer)) : Prop :=
  ∀ earlier i payment outcome later, events = earlier ++ (i, ⟨.runExecutor payment, outcome⟩) :: later →
    ∃ request, request.reservationId = payment.id ∧ Took earlier i request

theorem RunsOnOwn.concat (runs : RunsOnOwn events)
    (last : ∀ payment, op = .runExecutor payment → ∃ request, request.reservationId = payment.id ∧
      Took events i request) : RunsOnOwn (events ++ [(i, ⟨op, ans⟩)]) := by
  intro earlier j payment outcome later same
  rcases List.eq_nil_or_concat later with rfl | ⟨rest, e, rfl⟩
  · obtain ⟨rfl, own⟩ := List.append_inj' same rfl
    cases own
    exact last payment rfl
  · rw [List.concat_eq_append, ← List.cons_append, ← List.append_assoc] at same
    exact runs earlier j payment outcome rest (List.append_inj' same rfl).1

/-- A run of calls so far: no two of them hold one id, and nobody was interrupted on the way to a report. -/
structure Course (intents : ι → PaymentIntent) (events : List (ι × Event Op.Answer)) (l : MemorySpendLimiter)
    (phases : ι → Phase) : Prop where
  told : ∀ i, Told (intents i) events i (phases i)
  keeps : ∀ i, Keeps l (phases i)
  alone : ∀ i j request request', (phases i).reservation = .fresh request → (phases i).released = false →
    (phases j).reservation = .fresh request' → (phases j).released = false →
    (intents i).id = (intents j).id → i = j
  runs : RunsOnOwn events
  reported : Reported events → ∀ i, (phases i).unreported = false

variable {phases : ι → Phase} {intents : ι → PaymentIntent}

theorem Course.start (l : MemorySpendLimiter) : Course intents [] l fun _ => .before false where
  told _ := .start
  keeps _ _ fresh := by cases fresh
  alone _ _ _ _ fresh := by cases fresh
  runs earlier _ _ _ _ same := by cases earlier <;> cases same
  reported _ _ := rfl

variable [DecidableEq ι]

theorem Course.step (course : Course intents events l phases)
    (allowed : mayAsk platform guard mode (intents i) (phases i) op) (answered : LimiterAnswers l i op ans l') :
    Course intents (events ++ [(i, ⟨op, ans⟩)]) l'
      (Function.update phases i ((phases i).advance platform (intents i) op ans)) := by
  have spends := @spends_of_allowed platform guard mode (intents i) (phases i) op ans allowed
  have unshared : ∀ {j}, j ≠ i → ∀ request, (phases j).reservation = .fresh request →
      (phases j).released = false → (intents j).id = (intents i).id →
      ∀ taken, (phases i).reservation = .fresh taken → (phases i).released = true := by
    intro j other request fresh unreleased same taken held
    by_contra kept
    exact other (course.alone j i request taken fresh unreleased held (by simpa using kept) same)
  constructor
  · intro j
    rcases eq_or_ne j i with rfl | other
    · rw [Function.update_self]
      exact (course.told j).step spends (own_of_answered answered)
    · rw [Function.update_of_ne other]
      exact (course.told j).others other
  · intro j
    rcases eq_or_ne j i with rfl | other
    · rw [Function.update_self]
      exact (course.keeps j).step spends answered
    · rw [Function.update_of_ne other]
      refine fun request fresh unreleased => kept_answered (course.keeps j request fresh unreleased) answered ?_
      rintro reservationId rfl same
      obtain ⟨-, holding, -, own, -⟩ := allowed
      obtain ⟨free, taken, held⟩ := fresh_of_holding holding
      have id := ((course.told j).took request fresh).1
      rw [unshared other request fresh unreleased (id.symm.trans (same.trans own)) taken held] at free
      cases free
  · have apart : ∀ {j}, j ≠ i → ∀ {request request'},
        ((phases i).advance platform (intents i) op ans).reservation = .fresh request →
        ((phases i).advance platform (intents i) op ans).released = false →
        (phases j).reservation = .fresh request' → (phases j).released = false →
        (intents j).id ≠ (intents i).id := by
      intro j other request request' fresh unreleased held kept same
      rcases fresh_step spends answered fresh unreleased with ⟨before, free⟩ | absent
      · rw [unshared other request' held kept same request before] at free
        cases free
      · obtain ⟨state, found⟩ := course.keeps j request' held kept
        rw [((course.told j).took request' held).1, same, absent] at found
        cases found
    intro j k request request' fresh unreleased fresh' unreleased' same
    rcases eq_or_ne j i with rfl | otherJ
    · rcases eq_or_ne k j with rfl | otherK
      · rfl
      · rw [Function.update_self] at fresh unreleased
        rw [Function.update_of_ne otherK] at fresh' unreleased'
        exact absurd same.symm (apart otherK fresh unreleased fresh' unreleased')
    · rcases eq_or_ne k i with rfl | otherK
      · rw [Function.update_of_ne otherJ] at fresh unreleased
        rw [Function.update_self] at fresh' unreleased'
        exact absurd same (apart otherJ fresh' unreleased' fresh unreleased)
      · rw [Function.update_of_ne otherJ] at fresh unreleased
        rw [Function.update_of_ne otherK] at fresh' unreleased'
        exact course.alone j k request request' fresh unreleased fresh' unreleased' same
  · refine course.runs.concat ?_
    rintro payment rfl
    obtain ⟨-, holding, -, -, rfl⟩ := allowed
    obtain ⟨-, taken, held⟩ := fresh_of_holding holding
    obtain ⟨own, -, took⟩ := (course.told i).took taken held
    exact ⟨taken, own, took⟩
  · intro reported j
    have before : Reported events := fun earlier j op ans later same =>
      reported earlier j op ans (later ++ [(i, _)]) (by rw [same, List.append_assoc, List.cons_append])
    rcases eq_or_ne j i with rfl | other
    · rw [Function.update_self]
      refine reported_step allowed (course.reported before j) ?_
      rw [propext (course.told j).ran]
      exact reported events j op ans [] rfl
    · rw [Function.update_of_ne other]
      exact course.reported before j

/-! ### Any number of calls -/

/-- A call of `execute()` or `authorize()` on a guard. -/
structure GuardCall where
  guard : VadunoGuard
  mode : Mode
  submitted : Submitted

def GuardCall.program (platform : Platform) (call : GuardCall) : Program GuardResult :=
  call.guard.submit platform call.mode call.submitted

/-- Calls on any guards that share a limiter, before any of them has begun. -/
def sharing (platform : Platform) (calls : ι → GuardCall) (l : MemorySpendLimiter) :
    Pool Op.Answer Thrown GuardResult MemorySpendLimiter ι := ⟨l, fun i => (calls i).program platform⟩

/-- What an authorization promises rests on a reservation of the call's own. -/
def AuthorizesOnOwn (events : List (ι × Event Op.Answer))
    (pool : Pool Op.Answer Thrown GuardResult MemorySpendLimiter ι) : Prop :=
  ∀ i intentId policyResult mandateId, pool.threads i = .done (.ok (.authorized intentId policyResult mandateId)) →
    ∃ request, request.reservationId = intentId ∧ Took events i request

/-- One call at most runs the rail for an id. -/
def RunsOnce (events : List (ι × Event Op.Answer)) : Prop :=
  ∀ i j payment payment' outcome outcome', (i, ⟨.runExecutor payment, outcome⟩) ∈ events →
    (j, ⟨.runExecutor payment', outcome'⟩) ∈ events → payment.id = payment'.id → i = j

def deniesPayment : GuardResult → Bool
  | .denied .. | .approvalRejected .. | .replayed .. => true
  | _ => false

/-- A call that answers that it paid nothing never invoked its executor. -/
def DeniesTruly (events : List (ι × Event Op.Answer))
    (pool : Pool Op.Answer Thrown GuardResult MemorySpendLimiter ι) : Prop :=
  ∀ i result, pool.threads i = .done (.ok result) → deniesPayment result = true → ¬RanRail events i

variable {pool : Pool Op.Answer Thrown GuardResult MemorySpendLimiter ι}

theorem idle_of_denial {result : GuardResult} (settled : Settled mode intent φ (.ok result))
    (denies : deniesPayment result = true) : φ.rail = .idle ∨ φ.unreported = true := by
  cases result with
  | denied _ _ => exact settled.1
  | replayed _ _ _ => exact .inl settled
  | approvalRejected _ _ => exact .inl settled.2
  | _ => cases denies

theorem rails_on_own_reservations (platform : Platform) (calls : ι → GuardCall) (l : MemorySpendLimiter)
    (run : Run LimiterAnswers (sharing platform calls l) events pool) :
    RunsOnOwn events ∧ AuthorizesOnOwn events pool ∧ RunsOnce events ∧
      (Reported events → DeniesTruly events pool) := by
  choose intents meets using fun i => submit_meets platform (calls i).guard (calls i).mode (calls i).submitted
  obtain ⟨phases, course, settles⟩ := run.invariant
    (fun i => monitor platform (calls i).guard (calls i).mode (intents i))
    (fun i => Settled (calls i).mode (intents i)) (Course intents) meets (.start l)
    fun _ _ _ i _ _ _ course allowed answered =>
      ⟨_, ⟨rfl, own_of_answered answered⟩, course.step allowed answered⟩
  refine ⟨course.runs, ?_, ?_, ?_⟩
  · intro i intentId policyResult mandateId authorized
    have settled := settles i
    rw [authorized] at settled
    obtain ⟨rfl, -, holding, -⟩ := settled
    obtain ⟨-, request, fresh⟩ := fresh_of_holding holding
    obtain ⟨own, -, took⟩ := (course.told i).took request fresh
    exact ⟨request, own, took⟩
  · intro i j payment payment' outcome outcome' first second same
    obtain ⟨free, request, fresh⟩ := (course.told i).owned ((course.told i).ran.mpr ⟨_, _, first⟩)
    obtain ⟨free', request', fresh'⟩ := (course.told j).owned ((course.told j).ran.mpr ⟨_, _, second⟩)
    rw [(course.told i).paid payment outcome first, (course.told j).paid payment' outcome' second] at same
    exact course.alone i j request request' fresh free fresh' free' same
  · intro reported i result answered denies ran
    have settled := settles i
    rw [answered] at settled
    rcases idle_of_denial settled denies with idle | lost
    · exact (course.told i).ran.mpr ran idle
    · rw [course.reported reported i] at lost
      cases lost

end Sharing

/-! ### An error without a text -/

namespace Rails.Sample
open Resolution

/-- A limiter that works, and an executor that throws an object that has no text. -/
def answer (l : MemorySpendLimiter) : (op : Op) → op.Answer
  | .reserve request => (l.reserve request).1
  | .commitSpend _ | .releaseSpend _ => .ok ()
  | op => outside op

def oracle (l : MemorySpendLimiter) (_ : Unit) (op : Op) : op.Answer × MemorySpendLimiter :=
  (answer l op, Denials.Sample.left l op)

theorem oracle_agrees (l : MemorySpendLimiter) (i : Unit) (op : Op) :
    LimiterAnswers l i op (oracle l i op).1 (oracle l i op).2 := by
  cases op <;> first | exact .inl ⟨rfl, rfl⟩ | rfl

def calls (_ : Unit) : GuardCall := ⟨paying, .execute, .cloned payment⟩

def played : List (Unit × Event Op.Answer) × Pool Op.Answer Thrown GuardResult MemorySpendLimiter Unit :=
  Pool.play oracle (List.replicate 20 ()) (sharing Vaduno.Sample.platform calls .empty)

theorem played_run : Run LimiterAnswers (sharing Vaduno.Sample.platform calls .empty) played.1 played.2 :=
  Pool.run_play oracle_agrees _ _

def isRun : Op → Bool
  | .runExecutor _ => true
  | _ => false

def outcome : Program GuardResult → Option GuardResult
  | .done (.ok result) => some result
  | _ => none

theorem played_denied : (outcome (played.2.threads ())).map isDenied = some true ∧
    (played.1.any fun e => isRun e.2.1) = true := by
  decide +kernel

theorem call_on_own : RunsOnOwn played.1 ∧ AuthorizesOnOwn played.1 played.2 ∧ RunsOnce played.1 ∧
    (Reported played.1 → DeniesTruly played.1 played.2) :=
  rails_on_own_reservations Vaduno.Sample.platform calls .empty played_run

/-- The executor runs, and the call says that it was denied. -/
theorem denied_though_run : ¬∀ (platform : Platform) (calls : Unit → GuardCall) (l : MemorySpendLimiter)
    (events : List (Unit × Event Op.Answer)) (pool : Pool Op.Answer Thrown GuardResult MemorySpendLimiter Unit),
    Run LimiterAnswers (sharing platform calls l) events pool →
      RunsOnOwn events ∧ AuthorizesOnOwn events pool ∧ RunsOnce events ∧ DeniesTruly events pool := by
  intro claimed
  obtain ⟨-, -, -, truly⟩ := claimed _ _ _ _ _ played_run
  obtain ⟨denied, ran⟩ := played_denied
  obtain ⟨⟨i, op, ans⟩, member, runs⟩ := List.any_eq_true.mp ran
  cases answered : played.2.threads () with
  | await op next =>
    rw [answered] at denied
    cases denied
  | done result =>
    cases result with
    | error e =>
      rw [answered] at denied
      cases denied
    | ok result =>
      rw [answered] at denied
      refine truly () result answered ?_ ?_
      · cases result with
        | denied _ _ => rfl
        | _ => cases denied
      · cases op with
        | runExecutor payment => exact ⟨payment, ans, member⟩
        | _ => cases runs

end Rails.Sample
end Vaduno.Guard
