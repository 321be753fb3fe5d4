import Vaduno.Guard.Books
import Vaduno.Guard.Releases

/-! Settlements over the books of a guard. Retries, late failures and new authorizations of an id come in any order;
the critical section keeps the books in order. -/
namespace Vaduno.Guard
open Ecma Enforce Mandate Policy Ledger Async Program

/-- A call of a payment in two phases. -/
inductive TwoPhaseCall
  | authorize (submitted : Submitted)
  | settle (intentId : JsString) (outcome : SettleOutcome)
  | releaseSpend (intentId : JsString)

/-- How far a call is with the books: it decides or settles in the critical section, with the row it has to append
once it has read the trail. -/
inductive Desk
  | away
  | deciding
  | reading
  | holding (row : JsValue × JsString)
  | recorded
  | gone

namespace TwoPhaseCall

def use : TwoPhaseCall → GuardUse
  | authorize submitted => .pay .authorize submitted
  | settle intentId outcome => .settle intentId outcome
  | releaseSpend intentId => .releaseSpend intentId

/-- What the call appends to a trail it has read. -/
def missing : TwoPhaseCall → List Entry → Option (JsValue × JsString)
  | settle _ outcome => settlementRow outcome
  | _ => fun _ => none

/-- Where a call is once it has entered the critical section. -/
def entered : TwoPhaseCall → Desk
  | settle .. => .reading
  | _ => .deciding

/-- Where it leaves it. -/
def finished : TwoPhaseCall → Desk
  | settle .. => .recorded
  | _ => .deciding

end TwoPhaseCall

namespace Desk

def inside : Desk → Bool
  | away | gone => false
  | _ => true

/-- What reading the trail leaves to do. -/
def informed : Option (JsValue × JsString) → Desk
  | none => .recorded
  | some row => .holding row

def advance (call : TwoPhaseCall) (d : Desk) : (op : Op) → op.Answer → Desk
  | .enter .critical, _ => call.entered
  | .leave .critical, _ => .gone
  | .ledgerTrail _, .ok trail => informed (call.missing trail)
  | .append .executionResult _ _, _ => .recorded
  | _, _ => d

end Desk

/-- The ledger is read and written without failure. -/
def Succeeds : (op : Op) → op.Answer → Prop
  | .append .., appended => appended = .ok ()
  | .ledgerTrail _, read => ∃ trail, read = .ok trail
  | _, _ => True

/-- What a call may write into the books: the row of an authorization while it decides, and the row of a settlement
once it has read what is there. -/
def desk (platform : Platform) (call : TwoPhaseCall) : Monitor Op.Answer Desk where
  allowed d
    | .enter .critical => d = .away
    | .leave .critical => d = call.finished
    | .ledgerTrail intentId => d = .reading ∧ ∃ outcome, call = .settle intentId outcome
    | .append .executionStarted data refs => d = .deciding ∧ ∃ intent, data = authorizationData platform intent ∧
      refs = refsOf intent ∧ amountValid intent = true
    | .append .executionResult data refs => ∃ intentId outcome agentId, call = .settle intentId outcome ∧
      d = .holding (data, agentId) ∧ refs = ⟨some intentId, some agentId⟩
    | _ => True
  step d op ans d' := Succeeds op ans ∧ d' = d.advance call op ans

section Calls
variable {platform : Platform} {guard : VadunoGuard} {call : TwoPhaseCall} {d : Desk} {intentId : JsString}
  {outcome : SettleOutcome}

theorem quiet_beside (beside : isBeside op) : (desk platform call).Quiet d op := by
  constructor
  · cases op with
    | enter mutex | leave mutex =>
      cases mutex with
      | critical => cases beside
      | consume => trivial
    | ledgerTrail _ => cases beside
    | append type data refs =>
      cases type with
      | executionStarted | executionResult => cases beside
      | _ => trivial
    | _ => trivial
  · rintro ans d' ⟨-, rfl⟩
    cases op with
    | enter mutex | leave mutex =>
      cases mutex with
      | critical => cases beside
      | consume => rfl
    | ledgerTrail _ => cases beside
    | append type data refs =>
      cases type with
      | executionStarted | executionResult => cases beside
      | _ => rfl
    | _ => rfl

theorem quiet_authorizing (authorizing : isAuthorizing platform intent op) :
    (desk platform call).Quiet .deciding op := by
  rcases authorizing with beside | ⟨rfl, counts⟩
  · exact quiet_beside beside
  · exact ⟨⟨rfl, intent, rfl, rfl, counts⟩, fun ans d' moved => moved.2⟩

theorem outside_desk : Outside (desk platform call) (fun _ _ => True) .away where
  quiet _ deciding := quiet_beside (isBeside_of_isDeciding deciding)
  refused _ _ := trivial
  rejected _ _ := trivial

theorem authorize_books (submitted : Submitted) : (guard.submit platform .authorize submitted).Meets
    (desk platform (.authorize submitted)) (fun _ _ => True) .away := by
  unfold VadunoGuard.submit
  cases submitted.enter platform with
  | error e => trivial
  | ok intake =>
    refine outside_desk.run (fun _ approving => quiet_beside (isBeside_of_isApproving approving)) ?_ ?_
    · intro received intent _ approved _
      rw [meets_exclusive]
      refine ⟨rfl, fun _ d' moved => ?_⟩
      obtain rfl : d' = .deciding := moved.2
      refine (VadunoGuard.commit_authorizes.meets fun _ => quiet_authorizing).mono ?_
      rintro d r ⟨rfl, -⟩
      exact ⟨rfl, fun _ _ _ => trivial⟩
    · exact fun d e _ p asks => (asks.meets fun _ denying => quiet_beside (isBeside_of_isDenying denying)).mono
        fun _ _ _ => trivial

theorem recordSettlement_books : (VadunoGuard.recordSettlement intentId outcome).Meets
    (desk platform (.settle intentId outcome)) (fun d _ => d = .gone) .away := by
  unfold VadunoGuard.recordSettlement
  rw [meets_exclusive]
  refine ⟨rfl, fun _ d moved => ?_⟩
  obtain rfl : d = .reading := moved.2
  have leaves : ∀ {d : Desk}, d = .recorded →
      (desk platform (.settle intentId outcome)).allowed d (.leave .critical) ∧ ∀ ans d',
        (desk platform (.settle intentId outcome)).step d (.leave .critical) ans d' → d' = .gone :=
    fun recorded => ⟨recorded, fun _ _ moved => moved.2⟩
  refine (meets_bind _ _ _).mpr ⟨⟨rfl, outcome, rfl⟩, fun read d moved => ?_⟩
  obtain ⟨⟨trail, rfl⟩, rfl⟩ := moved
  rw [meets_done]
  dsimp only [Then, Except.toOption, Option.getD, Desk.advance, TwoPhaseCall.missing]
  cases settlementRow outcome trail with
  | none => exact leaves rfl
  | some row =>
    refine (meets_tryCatch _ _ _).mpr ((meets_orThrow _ _).mpr ⟨⟨intentId, outcome, row.2, rfl, rfl, rfl⟩, ?_⟩)
    rintro appended d' ⟨rfl, rfl⟩
    exact leaves rfl

/-- A settlement that resolves has been at the desk. -/
def Gone (d : Desk) (r : Throwing Unit) : Prop := r = .ok () → d = .gone

theorem away_bind {p : Program α} {f : α → Program Unit} (first : p.Asks isBeside anything)
    (rest : ∀ a, (f a).Meets (desk platform call) Gone .away) :
    (p >>= f).Meets (desk platform call) Gone .away := by
  refine Meets.bind (first.meets fun _ => quiet_beside) ?_ ?_
  · rintro d a ⟨rfl, -⟩
    exact rest a
  · rintro d e - ⟨⟩

theorem settle_books : (guard.settle intentId outcome).Meets (desk platform (.settle intentId outcome)) Gone .away := by
  unfold VadunoGuard.settle
  refine away_bind (orThrow_asks (ask_asks trivial)) fun settledAt => away_bind ?_ fun _ => away_bind ?_ fun _ =>
    recordSettlement_books.mono fun _ _ gone _ => gone
  · unfold VadunoGuard.commitSettled
    cases outcome.status with
    | executed => exact VadunoGuard.commitBestEffort_beside
    | failed => trivial
  · unfold VadunoGuard.settleMandate
    split_ifs
    · exact VadunoGuard.settleBestEffort_beside
    · trivial

/-- Where a settled call has been. -/
def AtDesk : TwoPhaseCall → Desk → Throwing (Option GuardResult) → Prop
  | .settle .., d, r => (∃ result, r = .ok result) → d = .gone
  | _, _, _ => True

theorem call_books (call : TwoPhaseCall) : (call.use.program platform guard).Meets (desk platform call)
    (AtDesk call) .away := by
  cases call with
  | authorize submitted => exact (meets_map _ _ _).mpr ((authorize_books submitted).mono fun _ _ _ => trivial)
  | settle intentId outcome =>
    refine Meets.bind settle_books ?_ ?_
    · exact fun d _ gone _ => gone rfl
    · rintro d e - ⟨result, ⟨⟩⟩
  | releaseSpend intentId =>
    refine Meets.bind (VadunoGuard.releaseBestEffort_beside.meets fun _ => quiet_beside) ?_ ?_
    · exact fun _ _ _ => trivial
    · exact fun _ _ _ => trivial

end Calls

/-! ### Shared books -/

/-- The ledger, and who is in the critical section. -/
structure Books (ι : Type) where
  rows : List Entry
  holder : Option ι

/-- The critical section admits one call at a time, and the ledger neither loses nor invents a row. All else is answered
in any way. -/
def KeepsBooks {ι : Type} (b : Books ι) (i : ι) : (op : Op) → op.Answer → Books ι → Prop
  | .enter .critical, _, b' => b.holder = none ∧ b' = { b with holder := some i }
  | .leave .critical, _, b' => b' = { b with holder := none }
  | .append type data refs, appended, b' => appended = .ok () ∧
    ∃ timestamp, b' = { b with rows := b.rows ++ [⟨timestamp, type, refs, data⟩] }
  | .ledgerTrail intentId, read, b' => read = .ok (trailOf intentId b.rows) ∧ b' = b
  | .ledgerAll, read, b' => read = .ok b.rows ∧ b' = b
  | _, _, b' => b' = b

section Runs
variable {ι : Type} {platform : Platform} {calls : ι → TwoPhaseCall} {b b' : Books ι} {desks : ι → Desk} {i : ι}
  {op : Op} {ans : op.Answer}

theorem KeepsBooks.succeeds (keeps : KeepsBooks b i op ans b') : Succeeds op ans := by
  cases op with
  | append _ _ _ => exact keeps.1
  | ledgerTrail _ => exact ⟨_, keeps.1⟩
  | _ => trivial

/-- The rows only grow. -/
theorem KeepsBooks.grows (keeps : KeepsBooks b i op ans b') : b.rows <+: b'.rows := by
  cases op with
  | append type data refs =>
    obtain ⟨-, timestamp, rfl⟩ := keeps
    exact List.prefix_append _ _
  | enter mutex =>
    cases mutex with
    | critical => rw [keeps.2]
    | consume => rw [show b' = b from keeps]
  | leave mutex =>
    cases mutex with
    | critical => rw [show b' = _ from keeps]
    | consume => rw [show b' = b from keeps]
  | ledgerTrail _ | ledgerAll => rw [keeps.2]
  | _ => rw [show b' = b from keeps]

variable [DecidableEq ι]

/-- One call at a time is in the critical section, what it has read is current, and the rows are in order. -/
structure Balanced (calls : ι → TwoPhaseCall) (b : Books ι) (desks : ι → Desk) : Prop where
  held : ∀ i, (desks i).inside = true ↔ b.holder = some i
  current : ∀ i intentId outcome row, calls i = .settle intentId outcome → desks i = .holding row →
    missingRow intentId outcome b.rows = some row
  posted : Posted b.rows

namespace Balanced
variable (balanced : Balanced calls b desks)
include balanced

/-- Nobody else is in the critical section. -/
theorem alone {j : ι} (inside : (desks i).inside = true) (other : j ≠ i) : (desks j).inside = false := by
  rw [Bool.eq_false_iff, ne_eq, balanced.held j, (balanced.held i).mp inside]
  exact fun same => other (Option.some.inj same).symm

/-- A call that stays in or stays out, while what others have read stays current. -/
theorem update {d : Desk} {rows : List Entry} (inside : d.inside = (desks i).inside)
    (current : ∀ intentId outcome row, calls i = .settle intentId outcome → d = .holding row →
      missingRow intentId outcome rows = some row)
    (others : ∀ j, j ≠ i → ∀ intentId outcome, (desks j).inside = true →
      missingRow intentId outcome rows = missingRow intentId outcome b.rows)
    (posted : Posted rows) : Balanced calls ⟨rows, b.holder⟩ (Function.update desks i d) where
  held j := by
    rcases eq_or_ne j i with rfl | other
    · rw [Function.update_self, inside]
      exact balanced.held j
    · rw [Function.update_of_ne other]
      exact balanced.held j
  current j intentId outcome row call holds := by
    rcases eq_or_ne j i with rfl | other
    · rw [Function.update_self] at holds
      exact current intentId outcome row call holds
    · rw [Function.update_of_ne other] at holds
      rw [others j other intentId outcome (by rw [holds]; rfl)]
      exact balanced.current j intentId outcome row call holds
  posted := posted

theorem enter {d : Desk} (free : b.holder = none) (inside : d.inside = true) (unread : ∀ row, d ≠ .holding row) :
    Balanced calls { b with holder := some i } (Function.update desks i d) where
  held j := by
    rcases eq_or_ne j i with rfl | other
    · simp [inside]
    · rw [Function.update_of_ne other, balanced.held j, free]
      simp [other.symm]
  current j intentId outcome row call holds := by
    rcases eq_or_ne j i with rfl | other
    · rw [Function.update_self] at holds
      exact absurd holds (unread row)
    · rw [Function.update_of_ne other] at holds
      exact balanced.current j intentId outcome row call holds
  posted := balanced.posted

theorem leave (inside : (desks i).inside = true) :
    Balanced calls { b with holder := none } (Function.update desks i .gone) where
  held j := by
    rcases eq_or_ne j i with rfl | other
    · simp [Desk.inside]
    · rw [Function.update_of_ne other, balanced.alone inside other]
      simp
  current j intentId outcome row call holds := by
    rcases eq_or_ne j i with rfl | other
    · rw [Function.update_self] at holds
      cases holds
    · rw [Function.update_of_ne other] at holds
      exact balanced.current j intentId outcome row call holds
  posted := balanced.posted

/-- A row that others do not depend on. -/
theorem append {d : Desk} {e : Entry} (inside : d.inside = (desks i).inside) (unread : ∀ row, d = .holding row →
      desks i = .holding row ∧ Neutral e.type)
    (writes : Neutral e.type ∨ (desks i).inside = true) (proper : Proper b.rows e) :
    Balanced calls ⟨b.rows ++ [e], b.holder⟩ (Function.update desks i d) := by
  refine balanced.update inside ?_ ?_ (balanced.posted.concat proper)
  · intro intentId outcome row call holds
    obtain ⟨held, neutral⟩ := unread row holds
    rw [missingRow_concat neutral]
    exact balanced.current i intentId outcome row call held
  · intro j other intentId outcome present
    rcases writes with neutral | alone
    · exact missingRow_concat neutral
    · rw [balanced.alone alone other] at present
      cases present

/-- What one call does keeps the books in order. -/
theorem step (allowed : (desk platform (calls i)).allowed (desks i) op) (keeps : KeepsBooks b i op ans b') :
    Balanced calls b' (Function.update desks i ((desks i).advance (calls i) op ans)) := by
  have unchanged : b' = b → (desks i).advance (calls i) op ans = desks i →
      Balanced calls b' (Function.update desks i ((desks i).advance (calls i) op ans)) := by
    rintro rfl same
    rw [same, Function.update_eq_self]
    exact balanced
  cases op with
  | enter mutex =>
    cases mutex with
    | consume => exact unchanged keeps rfl
    | critical =>
      obtain ⟨free, rfl⟩ := keeps
      have entered : ∀ call : TwoPhaseCall, call.entered.inside = true ∧ ∀ row, call.entered ≠ .holding row :=
        fun call => by cases call <;> exact ⟨rfl, fun _ => Desk.noConfusion⟩
      exact balanced.enter free (entered (calls i)).1 (entered (calls i)).2
  | leave mutex =>
    cases mutex with
    | consume => exact unchanged keeps rfl
    | critical =>
      obtain rfl : b' = _ := keeps
      refine balanced.leave ?_
      rw [show desks i = (calls i).finished from allowed]
      cases calls i <;> rfl
  | ledgerTrail intentId =>
    obtain ⟨rfl, rfl⟩ := keeps
    obtain ⟨reading, outcome, call⟩ := allowed
    have informed : (desks i).advance (calls i) (.ledgerTrail intentId) (.ok (trailOf intentId b'.rows)) =
        .informed (missingRow intentId outcome b'.rows) := by
      rw [call]
      rfl
    rw [informed]
    refine balanced.update ?_ ?_ (fun _ _ _ _ _ => rfl) balanced.posted
    · rw [reading]
      cases missingRow intentId outcome b'.rows <;> rfl
    · intro other outcome' row call' holds
      rw [call] at call'
      cases call'
      cases missing : missingRow intentId outcome b'.rows with
      | none =>
        rw [missing] at holds
        cases holds
      | some row' =>
        rw [missing] at holds
        cases holds
        rfl
  | ledgerAll => exact unchanged keeps.2 rfl
  | append type data refs =>
    obtain ⟨-, timestamp, rfl⟩ := keeps
    by_cases neutral : Neutral type
    · have same : (desks i).advance (calls i) (.append type data refs) ans = desks i := by
        cases type with
        | executionResult => exact absurd rfl neutral.2
        | _ => rfl
      rw [same]
      exact balanced.append rfl (fun row holds => ⟨holds, neutral⟩) (.inl neutral) (proper_neutral neutral)
    · cases type with
      | executionStarted =>
        obtain ⟨deciding, intent, rfl, rfl, counts⟩ := allowed
        refine balanced.append rfl ?_ (.inr ?_) (proper_authorization counts rfl rfl)
        · intro row holds
          rw [show desks i = .holding row from holds] at deciding
          cases deciding
        · rw [deciding]
          rfl
      | executionResult =>
        obtain ⟨intentId, outcome, agentId, call, holding, rfl⟩ := allowed
        have missing := balanced.current i intentId outcome (data, agentId) call holding
        refine balanced.append ?_ ?_ (.inr ?_) (proper_settlement missing rfl rfl balanced.posted)
        · rw [holding]
          rfl
        · rintro row ⟨⟩
        · rw [holding]
          rfl
      | _ => exact absurd ⟨EntryType.noConfusion, EntryType.noConfusion⟩ neutral
  | _ => exact unchanged keeps rfl

end Balanced

/-- A settlement that has been at the desk has left no authorization of before without a success. -/
def LeftSettled (call : TwoPhaseCall) (early rows : List Entry) (d : Desk) : Prop :=
  ∀ intentId outcome, call = .settle intentId outcome → outcome.status = .executed → d = .recorded ∨ d = .gone →
    Followed intentId early rows

theorem LeftSettled.later {call : TwoPhaseCall} {early rows later : List Entry} {d : Desk}
    (left : LeftSettled call early rows d) (grown : rows <+: later) : LeftSettled call early later d :=
  fun intentId outcome same executed there => (left intentId outcome same executed there).later grown

theorem LeftSettled.step {early : List Entry} (left : LeftSettled (calls i) early b.rows (desks i))
    (balanced : Balanced calls b desks) (grown : early <+: b.rows)
    (allowed : (desk platform (calls i)).allowed (desks i) op) (keeps : KeepsBooks b i op ans b') :
    LeftSettled (calls i) early b'.rows ((desks i).advance (calls i) op ans) := by
  intro intentId outcome call executed there
  by_cases before : desks i = .recorded ∨ desks i = .gone
  · exact (left intentId outcome call executed before).later keeps.grows
  have still : (desks i).advance (calls i) op ans = desks i → Followed intentId early b'.rows := fun same => by
    rw [same] at there
    exact absurd there before
  cases op with
  | enter mutex =>
    cases mutex with
    | consume => exact still rfl
    | critical =>
      rw [call] at there
      rcases there with there | there <;> cases there
  | leave mutex =>
    cases mutex with
    | consume => exact still rfl
    | critical =>
      refine absurd (.inl ?_) before
      rw [show desks i = (calls i).finished from allowed, call]
      rfl
  | ledgerTrail read =>
    obtain ⟨rfl, rfl⟩ := keeps
    obtain ⟨reading, outcome', same⟩ := allowed
    cases call.symm.trans same
    have informed : (desks i).advance (calls i) (.ledgerTrail intentId) (.ok (trailOf intentId b'.rows)) =
        .informed (missingRow intentId outcome b'.rows) := by
      rw [call]
      rfl
    rw [informed] at there
    cases missing : missingRow intentId outcome b'.rows with
    | none => exact (followed_of_resultSince (resultSince_of_missingRow executed missing)).earlier grown
    | some row =>
      rw [missing] at there
      rcases there with there | there <;> cases there
  | append type data refs =>
    cases type with
    | executionResult =>
      obtain ⟨-, timestamp, rfl⟩ := keeps
      obtain ⟨intentId', outcome', agentId, same, holding, rfl⟩ := allowed
      cases call.symm.trans same
      have missing := balanced.current i intentId outcome (data, agentId) call holding
      have settlement := settlement_of_missingRow
        (e := ⟨timestamp, .executionResult, ⟨some intentId, some agentId⟩, data⟩) missing rfl rfl executed
      refine (followed_of_resultSince ?_).earlier (grown.trans (List.prefix_append _ _))
      rw [resultSince_concat, show isResultOf true intentId _ = true from settlement,
        not_isAuthorizationOf_of_isResultOf settlement]
      rfl
    | _ => exact still rfl
  | _ => exact still rfl

/-! ### Any calls in two phases -/

section Main
variable {guard : VadunoGuard} {rows : List Entry} {earlier events : List (ι × Event Op.Answer)}
  {mid pool : Pool Op.Answer Thrown (Option GuardResult) (Books ι) ι}

/-- Any calls over the books of a guard, before any of them has begun. -/
def inTwoPhases (platform : Platform) (guard : VadunoGuard) (calls : ι → TwoPhaseCall) (rows : List Entry) :
    Pool Op.Answer Thrown (Option GuardResult) (Books ι) ι :=
  ⟨⟨rows, none⟩, fun i => (calls i).use.program platform guard⟩

omit [DecidableEq ι] in
theorem balanced_start (posted : Posted rows) : Balanced calls ⟨rows, none⟩ fun _ => Desk.away where
  held i := by simp [Desk.inside]
  current i intentId outcome row _ holds := by cases holds
  posted := posted

theorem run_balanced (posted : Posted rows) (run : Run KeepsBooks (inTwoPhases platform guard calls rows) events pool) :
    ∃ desks, (Balanced calls pool.world desks ∧ ∀ i, (∀ e ∈ events, e.1 ≠ i) → desks i = .away) ∧
      ∀ i, (pool.threads i).Meets (desk platform (calls i)) (AtDesk (calls i)) (desks i) := by
  refine run.invariant (fun i => desk platform (calls i)) (fun i => AtDesk (calls i))
    (fun events b desks => Balanced calls b desks ∧ ∀ i, (∀ e ∈ events, e.1 ≠ i) → desks i = .away)
    (fun i => call_books (calls i)) ⟨balanced_start posted, fun _ _ => rfl⟩ ?_
  rintro events b desks i op ans b' ⟨balanced, unbegun⟩ allowed keeps
  refine ⟨_, ⟨keeps.succeeds, rfl⟩, balanced.step allowed keeps, fun j idle => ?_⟩
  have other : j ≠ i := (idle (i, ⟨op, ans⟩) (by simp)).symm
  rw [Function.update_of_ne other]
  exact unbegun j fun e member => idle e (List.mem_append_left _ member)

theorem settlements_recorded_once (posted : Posted rows)
    (first : Run KeepsBooks (inTwoPhases platform guard calls rows) earlier mid)
    (later : Run KeepsBooks mid events pool) :
    SettledOnce pool.world.rows ∧ ∀ i intentId outcome, calls i = .settle intentId outcome →
      outcome.status = .executed → (∀ e ∈ earlier, e.1 ≠ i) → (∃ result, pool.threads i = .done (.ok result)) →
      Followed intentId mid.world.rows pool.world.rows := by
  constructor
  · obtain ⟨desks, ⟨balanced, -⟩, -⟩ := run_balanced posted (first.trans later)
    exact balanced.posted.settledOnce
  · rintro i intentId outcome call executed unbegun ⟨result, settled⟩
    obtain ⟨desks, ⟨balanced, away⟩, meets⟩ := run_balanced posted first
    have unsettled : LeftSettled (calls i) mid.world.rows mid.world.rows (desks i) := fun _ _ _ _ there => by
      rw [away i unbegun] at there
      rcases there with there | there <;> cases there
    obtain ⟨desks', ⟨-, -, left⟩, meets'⟩ := later.invariant (fun i => desk platform (calls i))
      (fun i => AtDesk (calls i)) (fun _ b desks => Balanced calls b desks ∧ mid.world.rows <+: b.rows ∧
        LeftSettled (calls i) mid.world.rows b.rows (desks i)) meets ⟨balanced, List.prefix_refl _, unsettled⟩ (by
      rintro events b desks j op ans b' ⟨balanced, grown, left⟩ allowed keeps
      refine ⟨_, ⟨keeps.succeeds, rfl⟩, balanced.step allowed keeps, grown.trans keeps.grows, ?_⟩
      rcases eq_or_ne i j with rfl | other
      · rw [Function.update_self]
        exact left.step balanced grown allowed keeps
      · rw [Function.update_of_ne other]
        exact left.later keeps.grows)
    have at_desk := meets' i
    rw [settled, call] at at_desk
    exact left intentId outcome call executed (.inr (at_desk ⟨result, rfl⟩))

end Main
end Runs

/-! ### A payment that is authorized and then settled -/

namespace Settlements.Sample
open Resolution

def oracle (b : Books Bool) (i : Bool) : (op : Op) → Option (op.Answer × Books Bool)
  | .enter .critical => if b.holder = none then some ((), { b with holder := some i }) else none
  | .leave .critical => some ((), { b with holder := none })
  | .append type data refs => some (.ok (), { b with rows := b.rows ++ [⟨"now", type, refs, data⟩] })
  | .ledgerTrail intentId => some (.ok (trailOf intentId b.rows), b)
  | .ledgerAll => some (.ok b.rows, b)
  | op => some (outside op, b)

theorem oracle_agrees {b : Books Bool} {i : Bool} {op : Op} {ans : op.Answer} {b' : Books Bool}
    (answered : oracle b i op = some (ans, b')) : KeepsBooks b i op ans b' := by
  cases op with
  | enter mutex =>
    cases mutex with
    | consume => cases answered; rfl
    | critical =>
      rw [oracle] at answered
      split_ifs at answered with free
      cases answered
      exact ⟨free, rfl⟩
  | leave mutex => cases mutex <;> cases answered <;> rfl
  | append type data refs => cases answered; exact ⟨rfl, "now", rfl⟩
  | ledgerTrail _ | ledgerAll => cases answered; exact ⟨rfl, rfl⟩
  | _ => cases answered; rfl

def calls : Bool → TwoPhaseCall
  | false => .authorize (.cloned payment)
  | true => .settle "i-1" ⟨.executed, none, none⟩

def authorized : Pool Op.Answer Thrown (Option GuardResult) (Books Bool) Bool :=
  Pool.attempt oracle (List.replicate 30 false) (inTwoPhases Vaduno.Sample.platform paying calls [])

def settled : Pool Op.Answer Thrown (Option GuardResult) (Books Bool) Bool :=
  Pool.attempt oracle (List.replicate 10 true) authorized

def isDone : Program (Option GuardResult) → Bool
  | .done (.ok _) => true
  | _ => false

theorem played : isDone (settled.threads true) = true ∧
    authorized.world.rows.any (isAuthorizationOf "i-1") = true := by
  decide +kernel

theorem payment_settled_once : SettledOnce settled.world.rows ∧
    Followed "i-1" authorized.world.rows settled.world.rows := by
  obtain ⟨earlier, first, within⟩ := Pool.run_attempt_within @oracle_agrees (List.replicate 30 false)
    (inTwoPhases Vaduno.Sample.platform paying calls [])
  obtain ⟨events, later⟩ := Pool.run_attempt @oracle_agrees (List.replicate 10 true) authorized
  obtain ⟨once, followed⟩ := settlements_recorded_once posted_nil first later
  refine ⟨once, followed true "i-1" _ rfl rfl ?_ ?_⟩
  · intro e member same
    have idle := within e member
    rw [same] at idle
    simp at idle
  · have done := played.1
    unfold isDone at done
    split at done
    · rename_i result finished
      exact ⟨result, finished⟩
    · cases done

end Settlements.Sample
end Vaduno.Guard
