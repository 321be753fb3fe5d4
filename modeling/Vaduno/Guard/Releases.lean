import Vaduno.Guard.Rails
import Vaduno.Guard.Settle

/-! What giving back a budget can take away. The limiter refuses to give back what was committed, and a payment is
committed only after its rail has run; in between its record can be given back by anybody who knows its id. -/
namespace Vaduno.Guard
open Ecma Enforce Mandate Policy Ledger Async Program

section Works
variable {ι : Type} {i : ι} {l l' : MemorySpendLimiter} {request : ReserveRequest} {op : Op} {ans : op.Answer}

/-- One that never fails answers like one that may. -/
theorem answers_of_works (works : LimiterWorks l i op ans l') : LimiterAnswers l i op ans l' := by
  cases op with
  | reserve _ | commitSpend _ | releaseSpend _ => exact .inl works
  | _ => exact works

/-- The record of a request is held for good. -/
def Stays (l : MemorySpendLimiter) (request : ReserveRequest) : Prop :=
  l.byId request.reservationId = some { MemorySpendLimiter.record request with state := .committed }

theorem Stays.works (stays : Stays l request) (works : LimiterWorks l i op ans l') : Stays l' request := by
  cases op with
  | reserve other =>
    rw [works.2]
    exact l.byId_reserve_of_some stays
  | commitSpend reservationId =>
    rw [works.2, Stays, l.byId_commit, stays]
    split_ifs <;> rfl
  | releaseSpend reservationId =>
    rw [works.2, Stays, l.byId_release, stays]
    split_ifs <;> rfl
  | _ =>
    rw [show l' = l from works]
    exact stays

theorem stays_commit {reservationId : JsString} (kept : Kept l request) (own : reservationId = request.reservationId) :
    Stays (l.commit reservationId) request := by
  obtain ⟨state, found⟩ := kept
  rw [Stays, l.byId_commit, if_pos own.symm, found]
  rfl

end Works

/-! ### One payment -/

section Payment
variable {ι : Type} {events : List (ι × Event Op.Answer)} {i j : ι} {l l' : MemorySpendLimiter}
  {request : ReserveRequest} {op : Op} {ans : op.Answer} {platform : Platform} {guard : VadunoGuard} {mode : Mode}
  {intent : PaymentIntent} {φ : Phase}

/-- Another call gave back the id after the call had taken its reservation. -/
def Reclaimed (events : List (ι × Event Op.Answer)) (i : ι) (reservationId : JsString) : Prop :=
  ∃ earlier j ans later request, events = earlier ++ (j, ⟨.releaseSpend reservationId, ans⟩) :: later ∧ j ≠ i ∧
    request.reservationId = reservationId ∧ Took earlier i request

/-- No other call gives back the id between the reservation of a call and its commit. -/
def Unreclaimed (events : List (ι × Event Op.Answer)) (i : ι) : Prop :=
  ∀ earlier reservationId ans later, events = earlier ++ (i, ⟨.commitSpend reservationId, ans⟩) :: later →
    ¬Reclaimed earlier i reservationId

theorem Reclaimed.mono {e : ι × Event Op.Answer} {reservationId : JsString}
    (reclaimed : Reclaimed events i reservationId) : Reclaimed (events ++ [e]) i reservationId := by
  obtain ⟨earlier, j, ans, later, request, same, rest⟩ := reclaimed
  exact ⟨earlier, j, ans, later ++ [e], request, by rw [same, List.append_assoc, List.cons_append], rest⟩

theorem Unreclaimed.before {e : ι × Event Op.Answer} (unreclaimed : Unreclaimed (events ++ [e]) i) :
    Unreclaimed events i := fun earlier reservationId ans later same =>
  unreclaimed earlier reservationId ans (later ++ [e]) (by rw [same, List.append_assoc, List.cons_append])

/-- What the events and the limiter hold of a call that others may take the record of. -/
structure Owed (intent : PaymentIntent) (events : List (ι × Event Op.Answer)) (i : ι) (l : MemorySpendLimiter)
    (φ : Phase) : Prop where
  told : Told intent events i φ
  owned : φ.committed = true → ∃ request, φ.reservation = .fresh request
  kept : ∀ request, φ.reservation = .fresh request → φ.released = false → φ.committed = false →
    Kept l request ∨ Reclaimed events i request.reservationId
  stays : ∀ request, φ.reservation = .fresh request → φ.committed = true → Unreclaimed events i → Stays l request

namespace Owed

theorem start : Owed intent ([] : List (ι × Event Op.Answer)) i l (.before false) where
  told := .start
  owned committed := by cases committed
  kept _ fresh := by cases fresh
  stays _ fresh := by cases fresh

theorem others (owed : Owed intent events i l φ) (other : j ≠ i) (works : LimiterWorks l j op ans l') :
    Owed intent (events ++ [(j, ⟨op, ans⟩)]) i l' φ where
  told := owed.told.others other.symm
  owned := owed.owned
  kept request fresh unreleased uncommitted := by
    rcases owed.kept request fresh unreleased uncommitted with kept | reclaimed
    · by_cases taken : op = .releaseSpend request.reservationId
      · subst taken
        exact .inr ⟨events, j, ans, [], request, rfl, other, rfl, (owed.told.took request fresh).2.2⟩
      · refine .inl (kept_answered kept (answers_of_works works) ?_)
        rintro reservationId rfl same
        exact taken (by rw [same])
    · exact .inr reclaimed.mono
  stays request fresh committed unreclaimed :=
    (owed.stays request fresh committed unreclaimed.before).works works

theorem step {φ' : Phase} (owed : Owed intent events i l φ) (spends : Spends intent φ op ans φ')
    (works : LimiterWorks l i op ans l') : Owed intent (events ++ [(i, ⟨op, ans⟩)]) i l' φ' := by
  have told := owed.told.step spends (own_of_works works)
  have still : φ'.reservation = φ.reservation → φ'.released = φ.released → φ'.committed = φ.committed →
      (∀ reservationId, op ≠ .releaseSpend reservationId) → Owed intent (events ++ [(i, ⟨op, ans⟩)]) i l' φ' := by
    intro reservation released committed unasked
    constructor
    · exact told
    · rw [reservation, committed]
      exact owed.owned
    · rw [reservation, released, committed]
      intro request fresh unreleased uncommitted
      exact (owed.kept request fresh unreleased uncommitted).imp
        (fun kept => kept_answered kept (answers_of_works works) fun id same => absurd same (unasked id)) .mono
    · rw [reservation, committed]
      exact fun request fresh committed unreclaimed =>
        (owed.stays request fresh committed unreclaimed.before).works works
  cases spends with
  | @reserve request ans untaken own amount =>
    have uncommitted : φ.committed = false := Bool.eq_false_iff.mpr fun committed => by
      obtain ⟨_, fresh⟩ := owed.owned committed
      rw [untaken] at fresh
      cases fresh
    refine ⟨told, ?_, ?_, ?_⟩
    · intro committed
      rw [show φ.committed = true from committed] at uncommitted
      cases uncommitted
    · intro taken fresh _ _
      obtain ⟨rfl, reservationId, state, rfl⟩ := fresh_of_reservationOf fresh
      exact .inl (took_answered (answers_of_works works)).2.2
    · intro taken fresh committed
      rw [show φ.committed = true from committed] at uncommitted
      cases uncommitted
  | @release reservationId ans holding own =>
    refine ⟨told, owed.owned, ?_, ?_⟩
    · rintro request fresh ⟨⟩
    · exact fun request fresh committed unreclaimed =>
        (owed.stays request fresh committed unreclaimed.before).works works
  | @commit reservationId ans own unreleased fresh =>
    refine ⟨told, fun _ => fresh, ?_, ?_⟩
    · rintro request held free ⟨⟩
    · intro request held _ unreclaimed
      by_cases committed : φ.committed = true
      · exact (owed.stays request held committed unreclaimed.before).works works
      · have id := (owed.told.took request held).1.trans own.symm
        rcases owed.kept request held unreleased (by simpa using committed) with kept | reclaimed
        · rw [works.2]
          exact stays_commit kept id.symm
        · rw [id] at reclaimed
          exact absurd reclaimed (unreclaimed events reservationId ans [] rfl)
  | run holding reservation released committed rail =>
    exact still reservation released committed fun _ => Op.noConfusion
  | other other reservation released committed rail =>
    refine still reservation released committed ?_
    rintro reservationId rfl
    exact other trivial

end Owed
end Payment

/-! ### Any calls of a guard -/

/-- A call of one of the guard's methods that spend, settle or give back. -/
inductive GuardUse
  | pay (mode : Mode) (submitted : Submitted)
  | settle (intentId : JsString) (outcome : SettleOutcome)
  | releaseSpend (intentId : JsString)

def GuardUse.program (platform : Platform) (guard : VadunoGuard) : GuardUse → Program (Option GuardResult)
  | pay mode submitted => some <$> guard.submit platform mode submitted
  | settle intentId outcome => do
    guard.settle intentId outcome
    return none
  | releaseSpend intentId => do
    VadunoGuard.releaseSpend intentId
    return none

section Main
variable {ι : Type} [DecidableEq ι] {events : List (ι × Event Op.Answer)}
  {pool : Pool Op.Answer Thrown (Option GuardResult) MemorySpendLimiter ι} {i : ι} {submitted : Submitted}

/-- Any calls of a guard, before any of them has begun. -/
def inUse (platform : Platform) (guard : VadunoGuard) (uses : ι → GuardUse) (l : MemorySpendLimiter) :
    Pool Op.Answer Thrown (Option GuardResult) MemorySpendLimiter ι := ⟨l, fun i => (uses i).program platform guard⟩

/-- The limiter counts the payment for good. -/
def CountedFor (l : MemorySpendLimiter) (payment : PaymentIntent) : Prop :=
  ∃ r, l.byId payment.id = some r ∧ r.state = .committed ∧ r.amountMinor = payment.amount.amountMinor ∧
    r ∈ l.held r.scope r.currency

theorem executed_stay_counted (platform : Platform) (guard : VadunoGuard) (uses : ι → GuardUse)
    (l : MemorySpendLimiter) (run : Run LimiterWorks (inUse platform guard uses l) events pool)
    (pays : uses i = .pay .execute submitted) (unreclaimed : Unreclaimed events i)
    (executed : pool.threads i = .done (.ok (some (.executed intentId policyResult value degraded)))) :
    ∃ payment outcome, (i, ⟨.runExecutor payment, outcome⟩) ∈ events ∧ payment.id = intentId ∧
      CountedFor pool.world payment := by
  obtain ⟨intent, meets⟩ := submit_meets platform guard .execute submitted
  have own : ((inUse platform guard uses l).threads i).Meets (monitor platform guard .execute intent)
      (fun φ r => ∀ result, r = .ok (some result) → Settled .execute intent φ (.ok result)) (.before false) := by
    change ((uses i).program platform guard).Meets _ _ _
    rw [pays]
    refine (meets_map _ _ _).mpr (meets.mono ?_)
    rintro φ (e | settled) fits result same
    · cases same
    · cases same
      exact fits
  obtain ⟨φ, owed, settles⟩ := run.observe i (fun events l φ => Owed intent events i l φ) own .start
    (fun owed allowed works => ⟨_, ⟨rfl, own_of_works works⟩, owed.step (spends_of_allowed allowed) works⟩)
    fun other owed works => owed.others other works
  rw [executed] at settles
  obtain ⟨rfl, ran, committed⟩ := settles _ rfl
  obtain ⟨request, fresh⟩ := ran.reservation
  have railed : φ.rail ≠ .idle := by
    rw [ran.rail]
    exact Rail.noConfusion
  obtain ⟨payment, outcome, member⟩ := owed.told.ran.mp railed
  obtain rfl := owed.told.paid payment outcome member
  obtain ⟨own, amount, -⟩ := owed.told.took request fresh
  have stays := owed.stays request fresh committed unreclaimed
  refine ⟨payment, outcome, member, rfl, { MemorySpendLimiter.record request with state := .committed }, ?_, rfl,
    amount, ?_⟩
  · rw [← own]
    exact stays
  · exact pool.world.indexed.mem_iff.mpr stays

end Main

/-! ### A budget that is given back while its payment runs -/

namespace Releases.Sample
open Resolution

/-- A limiter that works, and an executor that succeeds. -/
def answer (l : MemorySpendLimiter) : (op : Op) → op.Answer
  | .runExecutor _ => .ok .null
  | op => Rails.Sample.answer l op

def oracle (l : MemorySpendLimiter) (_ : Bool) (op : Op) : op.Answer × MemorySpendLimiter :=
  (answer l op, Denials.Sample.left l op)

theorem oracle_agrees (l : MemorySpendLimiter) (i : Bool) (op : Op) :
    LimiterWorks l i op (oracle l i op).1 (oracle l i op).2 := by
  cases op <;> first | exact ⟨rfl, rfl⟩ | rfl

/-- One call pays, and the other gives back the budget of the same id. -/
def uses : Bool → GuardUse
  | false => .pay .execute (.cloned payment)
  | true => .releaseSpend "i-1"

def start : Pool Op.Answer Thrown (Option GuardResult) MemorySpendLimiter Bool :=
  inUse Vaduno.Sample.platform paying uses .empty

def playedIn (schedule : List Bool) : List (Bool × Event Op.Answer) ×
    Pool Op.Answer Thrown (Option GuardResult) MemorySpendLimiter Bool := Pool.play oracle schedule start

theorem playedIn_run (schedule : List Bool) : Run LimiterWorks start (playedIn schedule).1 (playedIn schedule).2 :=
  Pool.run_play oracle_agrees schedule start

def executedId : Program (Option GuardResult) → Option JsString
  | .done (.ok (some (.executed intentId _ _ _))) => some intentId
  | _ => none

theorem executed_of_id {p : Program (Option GuardResult)} (executed : executedId p = some intentId) :
    ∃ policyResult value degraded, p = .done (.ok (some (.executed intentId policyResult value degraded))) := by
  unfold executedId at executed
  split at executed <;> cases executed
  exact ⟨_, _, _, rfl⟩

/-- The other call does not begin. -/
def undisturbed : List Bool := List.replicate 30 false

/-- The other call comes while the executor runs. -/
def disturbed : List Bool := List.replicate 16 false ++ true :: List.replicate 10 false

theorem played : executedId ((playedIn undisturbed).2.threads false) = some (encode "i-1") ∧
    ((playedIn undisturbed).1.all fun e => e.1 = false) = true ∧
    executedId ((playedIn disturbed).2.threads false) = some (encode "i-1") ∧
    ((playedIn disturbed).2.world.byId (encode "i-1")).isNone = true := by
  decide +kernel

theorem undisturbed_counted : ∃ payment outcome,
    (false, ⟨.runExecutor payment, outcome⟩) ∈ (playedIn undisturbed).1 ∧ payment.id = encode "i-1" ∧
      CountedFor (playedIn undisturbed).2.world payment := by
  obtain ⟨policyResult, value, degraded, executed⟩ := executed_of_id played.1
  refine executed_stay_counted Vaduno.Sample.platform paying uses .empty (playedIn_run undisturbed) rfl ?_ executed
  rintro earlier reservationId ans later same ⟨before, j, ans', after, request, split, other, -⟩
  have alone := List.all_eq_true.mp played.2.1 (j, ⟨.releaseSpend reservationId, ans'⟩) (by simp [same, split])
  exact other (of_decide_eq_true alone)

/-- The payment is executed, and nothing counts it. -/
theorem executed_uncounted : ¬∀ (platform : Platform) (guard : VadunoGuard) (uses : Bool → GuardUse)
    (l : MemorySpendLimiter) (events : List (Bool × Event Op.Answer))
    (pool : Pool Op.Answer Thrown (Option GuardResult) MemorySpendLimiter Bool) (i : Bool) (submitted : Submitted)
    (intentId : JsString) (policyResult : PolicyResult) (value : JsValue) (degraded : Bool),
    Run LimiterWorks (inUse platform guard uses l) events pool → uses i = .pay .execute submitted →
    pool.threads i = .done (.ok (some (.executed intentId policyResult value degraded))) →
    ∃ payment outcome, (i, ⟨.runExecutor payment, outcome⟩) ∈ events ∧ payment.id = intentId ∧
      CountedFor pool.world payment := by
  intro claimed
  obtain ⟨-, -, id, lost⟩ := played
  obtain ⟨policyResult, value, degraded, executed⟩ := executed_of_id id
  obtain ⟨payment, outcome, -, own, r, found, -⟩ :=
    claimed _ _ _ _ _ _ _ _ _ _ _ _ (playedIn_run disturbed) rfl executed
  rw [own] at found
  rw [found] at lost
  cases lost

end Releases.Sample
end Vaduno.Guard
