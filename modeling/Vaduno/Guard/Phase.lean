import Vaduno.Guard.Pipeline
import Vaduno.Mandate.Progress

/-! How far one call through the pipeline has got, and what it may ask for there: the reservation it
took or did not take, the use of its mandate, the rail, and whether an exception was met where
nothing inside the critical section catches it. -/
namespace Vaduno.Guard
open Ecma Enforce Mandate Policy Ledger Async Program

inductive Reservation
  | untaken
  /-- The limiter threw; whether it recorded anything is not known. -/
  | unanswered
  | refused
  | replayed (state : Option ReservationState)
  | fresh (request : ReserveRequest)

inductive Rail
  | idle
  | ran (outcome : Throwing JsValue)

structure Phase where
  /-- In the guard's critical section. -/
  inside : Bool
  reservation : Reservation
  /-- The limiter was asked to give the reservation back. -/
  released : Bool
  /-- The limiter was asked to keep the reservation for good. -/
  committed : Bool
  /-- The mandate's use, from the reservation on. -/
  use : Progress
  rail : Rail
  /-- Something threw while the call held its own reservation and the rail had not run. -/
  interrupted : Bool
  /-- Something threw on the way from the rail to its report. -/
  unreported : Bool

def reservationOf (request : ReserveRequest) : Throwing ReserveResult → Reservation
  | .ok (.ok _ false _) => .fresh request
  | .ok (.ok _ true state) => .replayed state
  | .ok (.refused _) => .refused
  | .error _ => .unanswered

namespace Phase

/-- Before there is a reservation. -/
def before (inside : Bool) : Phase :=
  ⟨inside, .untaken, false, false, .begun, .idle, false, false⟩

/-- With this reservation and this use, and nothing done about either. -/
def of (reservation : Reservation) (use : Progress) : Phase :=
  ⟨true, reservation, false, false, use, .idle, false, false⟩

/-- The call holds a reservation it took itself, and nothing has run on it. -/
def holding (φ : Phase) : Bool :=
  match φ.reservation, φ.released, φ.rail with
  | .fresh _, false, .idle => true
  | _, _, _ => false

/-- What an exception at this point does. -/
def fail (φ : Phase) : Phase :=
  match φ.rail with
  | .ran _ => { φ with unreported := true }
  | .idle => { φ with interrupted := φ.interrupted || φ.holding }

section Advance
variable (platform : Platform) (intent : PaymentIntent)

/-- Whether an answer that comes after the reservation makes the pipeline throw. -/
def throws (φ : Phase) : (op : Op) → op.Answer → Bool
  | .append .executionStarted _ _, appended => isError appended
  | .runExecutor _, .error err => isError (errMsg err)
  | op, ans => φ.use.throws platform intent op ans

/-- Where an answer that comes after the reservation leads. -/
def moved (φ : Phase) : (op : Op) → op.Answer → Phase
  | .leave .critical, _ => { φ with inside := false }
  | .releaseSpend _, _ => { φ with released := true }
  | .commitSpend _, _ => { φ with committed := true }
  | .runExecutor _, outcome => { φ with rail := .ran outcome }
  | op, ans => { φ with use := φ.use.advance op ans }

/-- Where an answer leads while there is no reservation. -/
def reserving (φ : Phase) : (op : Op) → op.Answer → Phase
  | .enter .critical, _ => { φ with inside := true }
  | .leave .critical, _ => { φ with inside := false }
  | .reserve request, answered => { φ with reservation := reservationOf request answered }
  | _, _ => φ

def advance (φ : Phase) (op : Op) (ans : op.Answer) : Phase :=
  match φ.reservation with
  | .untaken => φ.reserving op ans
  | _ => if φ.throws platform intent op ans then (φ.moved op ans).fail else φ.moved op ans

variable {platform intent}

theorem advance_untaken {φ : Phase} (untaken : φ.reservation = .untaken) :
    φ.advance platform intent op ans = φ.reserving op ans := by
  simp only [advance, untaken]

theorem advance_taken {φ : Phase} (taken : φ.reservation ≠ .untaken) :
    φ.advance platform intent op ans =
      if φ.throws platform intent op ans then (φ.moved op ans).fail else φ.moved op ans := by
  unfold advance
  split
  · rename_i untaken
    exact absurd untaken taken
  · rfl

theorem advance_quiet {φ : Phase} (reserving : φ.reserving op ans = φ)
    (throws : φ.throws platform intent op ans = false) (moved : φ.moved op ans = φ) :
    φ.advance platform intent op ans = φ := by
  unfold advance
  split
  · exact reserving
  · rw [throws, moved]
    rfl

end Advance
end Phase

section Monitor
variable (platform : Platform) (guard : VadunoGuard) (mode : Mode) (intent : PaymentIntent)

/-- What the call may ask of its mandate manager. -/
def mayConsume (φ : Phase) (op : Op) : Prop :=
  φ.reservation ≠ .untaken ∧ φ.rail = .idle ∧ ∃ manager, guard.mandates = some manager ∧
    (consuming manager (intent.mandateId.getD []) intent).allowed platform φ.use op

/-- What a call may ask for: one reservation, for its own id and amount, inside the critical section;
the rail, a release and the row that starts an execution only on a reservation of its own; a commit
only of what has run; and of the mandate manager nothing once the rail has run. -/
def mayAsk (φ : Phase) : Op → Prop
  | .enter .critical => φ.inside = false ∧ φ.reservation = .untaken
  | .reserve request => φ.inside = true ∧ φ.reservation = .untaken ∧
    request.reservationId = intent.id ∧ request.amountMinor = intent.amount.amountMinor
  | .releaseSpend reservationId => φ.inside = true ∧ φ.holding = true ∧ φ.interrupted = false ∧
    reservationId = intent.id ∧ intent.id ≠ []
  | .runExecutor payment => φ.inside = true ∧ φ.holding = true ∧ φ.interrupted = false ∧
    mode = .execute ∧ payment = intent
  | .append .executionStarted _ _ => φ.holding = true
  | .commitSpend reservationId => φ.inside = true ∧ reservationId = intent.id ∧
    φ.released = false ∧ (∃ request, φ.reservation = .fresh request) ∧ ∃ value, φ.rail = .ran (.ok value)
  | .settleClaim mandateId useKey _ => ∃ claim, φ.use = .won claim ∧
    mandateId = claim.mandateId ∧ useKey = claim.useKey
  | .getClaim mandateId useKey => mayConsume platform guard intent φ (.getClaim mandateId useKey)
  | .claimUse claim maxUses => mayConsume platform guard intent φ (.claimUse claim maxUses)
  | .mandateState _ | .append .mandateConsumed _ _ | .append .mandateReplayed _ _ => φ.rail = .idle
  | .now => φ.rail = .idle ∨ ∀ state, φ.use ≠ .absent state
  | _ => True

/-- A limiter answers for the reservation it was asked for. -/
def AnsweredOwn : (op : Op) → op.Answer → Prop
  | .reserve request, .ok (.ok reservationId _ _) => reservationId = request.reservationId
  | _, _ => True

def monitor : Monitor Op.Answer Phase where
  allowed φ op := mayAsk platform guard mode intent φ op
  step φ op ans φ' := φ' = φ.advance platform intent op ans ∧ AnsweredOwn op ans

end Monitor
end Vaduno.Guard
