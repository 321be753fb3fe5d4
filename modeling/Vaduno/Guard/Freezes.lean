import Vaduno.Async.Refine
import Vaduno.Guard.Hydrate
import Vaduno.Guard.LastLook

/-! The emergency stop. Freezing a guard and lifting that flip a flag at once, and queue a row of it; what is taken back
from the ledger after a restart sets the flag from rows that were read before. Whatever of this is under way at the same
time, the last flip holds, and no payment is launched by a call that looked after a freeze. -/
namespace Vaduno.Guard
open Ecma Enforce Mandate Policy Ledger Async Program

/-! ### The calls -/

/-- What calls ask for where the freeze of their guard is a part of the world. -/
inductive FreezeOp
  | guard (op : Op)
  /-- The flag is cleared and a row of it queued; the answer is the reason that the flag had. -/
  | lift
  /-- How often the flag was flipped. -/
  | epoch
  /-- Which flip the last queued row is of. -/
  | freezeWrites
  /-- The row of a flip has been written, or could not be. -/
  | written (epoch : ℕ)
  | readLedger
  | restore (expectedHead : Option LedgerHead) (epochAtCall : ℕ) (verifyRead allRead : Throwing (List LedgerEntry))

@[reducible] def FreezeOp.Answer : FreezeOp → Type
  | guard op => op.Answer
  | lift => Option JsString
  | epoch | freezeWrites => ℕ
  | written _ => Unit
  | readLedger => Throwing (List LedgerEntry)
  | restore .. => Throwing HydrateReport

abbrev FreezeProgram : Type → Type := Async FreezeOp.Answer Thrown

abbrev FreezeOp.ask (op : FreezeOp) : FreezeProgram op.Answer := Async.perform op

/-- One of the guard's own operations. -/
def inWorld (_ : Unit) (op : Op) : FreezeProgram (op.Answer × Unit) := do
  return (← FreezeOp.ask (.guard op), ())

def unfreeze : FreezeProgram Unit := do
  let reason ← FreezeOp.ask .lift
  tryCatch (Async.orThrow (FreezeOp.ask (.guard
    (.append .guardUnfrozen (.object [("previousReason", reason.elim .null .string)]) ⟨none, none⟩))))
    fun _ => FreezeOp.ask (.guard (.degrade .freeze))

section Calls
variable (platform : Platform) (guard : VadunoGuard)

def passes (expectedHead : Option LedgerHead) (verifyRead : Throwing (List LedgerEntry)) : Bool :=
  match verifyRead with
  | .ok entries => (verify platform expectedHead entries).ok
  | .error _ => false

/-- The second read follows only a verification that went well. -/
def readAll (expectedHead : Option LedgerHead) (verifyRead : Throwing (List LedgerEntry)) :
    FreezeProgram (Throwing (List LedgerEntry)) :=
  if passes platform expectedHead verifyRead then FreezeOp.ask .readLedger else return .ok []

/-- The rows are read once every row about freezing that was queued before has been written. -/
def restoring (expectedHead : Option LedgerHead) (epochAtCall : ℕ) : FreezeProgram HydrateReport := do
  FreezeOp.ask (.written (← FreezeOp.ask .freezeWrites))
  let verifyRead ← FreezeOp.ask .readLedger
  let allRead ← readAll platform expectedHead verifyRead
  Async.orThrow (FreezeOp.ask (.restore expectedHead epochAtCall verifyRead allRead))

def hydrating (expectedHead : Option LedgerHead) (epochAtCall : ℕ) : FreezeProgram HydrateReport := do
  if ← FreezeOp.ask (.guard .hydrated) then
    throw (.error "hydrateFromLedger already called on this guard instance")
  else restoring platform expectedHead epochAtCall

/-- The epoch is that of the call, not of its turn in the critical section. -/
def hydrate (expectedHead : Option LedgerHead) : FreezeProgram HydrateReport := do
  let epochAtCall ← FreezeOp.ask .epoch
  bracket (.guard (.enter .critical)) (.guard (.leave .critical)) (hydrating platform expectedHead epochAtCall)

inductive FreezeCall
  | guarded (call : GuardUse)
  | freeze (reason : JsString)
  | unfreeze
  | hydrate (expectedHead : Option LedgerHead)

/-- Of what calls answer, only what was restored is looked at. -/
def FreezeCall.program : FreezeCall → FreezeProgram (Option HydrateReport)
  | guarded call => (fun _ => none) <$> (call.program platform guard).carry inWorld ()
  | freeze reason => (fun _ => none) <$> (VadunoGuard.freeze reason []).carry inWorld ()
  | unfreeze => (fun _ => none) <$> Guard.unfreeze
  | hydrate expectedHead => some <$> Guard.hydrate platform expectedHead

end Calls

/-! ### The world -/

structure FreezeWorld (ι : Type) where
  memory : GuardMemory
  rows : List LedgerEntry
  /-- The rows about freezing that are still to be written, in their order: whose they are, and whether of a freeze. -/
  queued : List (ι × Bool)

section World
variable {ι : Type}

/-- The flag is flipped and the row of it queued in one turn. -/
def FreezeWorld.flip (w : FreezeWorld ι) (i : ι) (frozen : Option JsString) : FreezeWorld ι :=
  { w with
    memory := { w.memory with frozen, freezeEpoch := w.memory.freezeEpoch + 1 }
    queued := w.queued ++ [(i, frozen.isSome)] }

/-- Others may have written rows, but none about freezing. -/
def Grown (rows rows' : List LedgerEntry) : Prop := ∃ others, (∀ e ∈ others, isFreezeRow e = false) ∧ rows' = rows ++ others

def Added (rows rows' : List LedgerEntry) (type : EntryType) : Prop :=
  ∃ grown e, Grown rows grown ∧ e.type = type ∧ rows' = grown ++ [e]

/-- A row that is appended is there, one that fails to be may be. -/
def Appended (rows rows' : List LedgerEntry) (type : EntryType) : Throwing Unit → Prop
  | .ok _ => Added rows rows' type
  | .error _ => Added rows rows' type ∨ Grown rows rows'

/-- The rows about freezing, told by whether they are of a freeze. -/
def flipOfRow : EntryType → Option Bool
  | .guardFrozen => some true
  | .guardUnfrozen => some false
  | _ => none

/-- A row about freezing has its turn when it is the first in the queue. -/
def FreezeWorld.Dequeues (w w' : FreezeWorld ι) (i : ι) (rows : List LedgerEntry) : Option Bool → Prop
  | some kind => ∃ rest, w.queued = (i, kind) :: rest ∧ w' = { w with rows, queued := rest }
  | none => w' = { w with rows }

def FreezeWorld.Guarded (w : FreezeWorld ι) (i : ι) : (op : Op) → op.Answer → FreezeWorld ι → Prop
  | .frozen, reason, w' => reason = w.memory.frozen ∧ w' = w
  | .setFrozen reason, _, w' => w' = w.flip i (some reason)
  | .hydrated, hydrated, w' => hydrated = w.memory.hydrated ∧ w' = w
  | .hydrateFailed, failed, w' => failed = w.memory.hydrateFailed ∧ w' = w
  | .executed, spends, w' => spends = w.memory.executed ∧ w' = w
  | .recordExecuted spend, _, w' => w' = { w with memory := { w.memory with executed := w.memory.executed ++ [spend] } }
  | .append type _ _, appended, w' => ∃ rows, Appended w.rows rows type appended ∧ w.Dequeues w' i rows (flipOfRow type)
  | _, _, w' => w' = w

/-- What this guard's memory and its ledger answer. Everything else may answer anything. -/
def FreezeAnswers (platform : Platform) : Async.Answers FreezeOp.Answer (FreezeWorld ι) ι
  | w, i, .guard op, ans, w' => w.Guarded i op ans w'
  | w, i, .lift, reason, w' => reason = w.memory.frozen ∧ w' = w.flip i none
  | w, _, .epoch, epoch, w' | w, _, .freezeWrites, epoch, w' => epoch = w.memory.freezeEpoch ∧ w' = w
  | w, _, .written epoch, _, w' => epoch + w.queued.length ≤ w.memory.freezeEpoch ∧ w' = w
  | w, _, .readLedger, read, w' => ∃ rows, Grown w.rows rows ∧ (∀ entries, read = .ok entries → entries = rows) ∧
      w' = { w with rows }
  | w, _, .restore expectedHead epochAtCall verifyRead allRead, report, w' =>
    (report, w'.memory) = hydrateFromLedger platform expectedHead epochAtCall verifyRead allRead w.memory ∧
      w'.rows = w.rows ∧ w'.queued = w.queued

abbrev FreezeEvents (ι : Type) := List (ι × Event FreezeOp.Answer)

/-- Any calls on one guard, before any of them has begun and while no row about freezing is queued. -/
def freezing (platform : Platform) (guard : VadunoGuard) (calls : ι → FreezeCall) (memory : GuardMemory)
    (rows : List LedgerEntry) : Pool FreezeOp.Answer Thrown (Option HydrateReport) (FreezeWorld ι) ι :=
  ⟨⟨memory, rows, []⟩, fun i => (calls i).program platform guard⟩

/-! ### What the events say -/

def flipOf : FreezeOp → Option Bool
  | .guard (.setFrozen _) => some true
  | .lift => some false
  | _ => none

/-- The freezes and the lifts, in their order. -/
def flips (events : FreezeEvents ι) : List Bool := events.filterMap fun e => flipOf e.2.1

/-- Whether the last flip was a freeze, or before any flip, what was so to begin with. -/
def stopped (initially : Bool) (events : FreezeEvents ι) : Bool := (flips events).getLast?.getD initially

/-- The row of a lift could not be written. -/
def LiftUnwritten (events : FreezeEvents ι) : Prop :=
  ∃ i data refs e, (i, ⟨.guard (.append .guardUnfrozen data refs), .error e⟩) ∈ events

/-- When this call looked last, it found no freeze, and none was in force. -/
def LookedClear (initially : Bool) (i : ι) (events : FreezeEvents ι) : Prop :=
  ∃ before after, events = before ++ (i, ⟨.guard .frozen, (none : Option JsString)⟩) :: after ∧
    (∀ e ∈ after, e.1 = i → e.2.1 ≠ .guard .frozen) ∧ stopped initially before = false

/-! ### Where a call has got to -/

inductive FreezeStage
  /-- A call of the guard's own, a freeze or a lift, with what its last look found. -/
  | calling (clear : Option Bool)
  | called
  | stamped (epoch : ℕ)
  | waiting (epoch last : ℕ)
  | waited (epoch : ℕ)
  | verifying (epoch : ℕ) (verifyRead : Throwing (List LedgerEntry))
  | read (epoch : ℕ) (verifyRead allRead : Throwing (List LedgerEntry))
  | restored (epoch : ℕ) (verifyRead allRead : Throwing (List LedgerEntry))

namespace FreezeStage

def advance : FreezeStage → (op : FreezeOp) → op.Answer → FreezeStage
  | calling clear, .guard op, ans => calling (look clear op ans)
  | called, .epoch, epoch => stamped epoch
  | stamped epoch, .freezeWrites, last => waiting epoch last
  | waiting epoch _, .written _, _ => waited epoch
  | waited epoch, .readLedger, verifyRead => verifying epoch verifyRead
  | verifying epoch verifyRead, .readLedger, allRead => read epoch verifyRead allRead
  | read epoch verifyRead allRead, .restore .., .ok _ => restored epoch verifyRead allRead
  | s, _, _ => s

/-- What a call that takes the ledger back asks of its guard. -/
def isQueueing : Op → Prop
  | .enter .critical | .leave .critical | .hydrated => True
  | _ => False

def mayAsk (expectedHead : Option LedgerHead) : FreezeStage → FreezeOp → Prop
  | calling clear, .guard op => isLaunch op → clear = some true
  | calling _, .lift => True
  | calling _, _ => False
  | _, .guard op => isQueueing op
  | called, .epoch | stamped _, .freezeWrites | waited _, .readLedger | verifying .., .readLedger => True
  | waiting _ last, .written epoch => epoch = last
  | verifying _ _, .restore _ _ _ allRead => allRead = .ok []
  | read epoch verifyRead allRead, .restore head epoch' verifyRead' allRead' =>
    head = expectedHead ∧ epoch' = epoch ∧ verifyRead' = verifyRead ∧ allRead' = allRead
  | _, _ => False

end FreezeStage

/-- Nothing is restored from rows that do not pass. -/
def RestoresOwn (platform : Platform) : (op : FreezeOp) → op.Answer → Prop
  | .restore expectedHead _ verifyRead _, .ok _ => passes platform expectedHead verifyRead = true
  | _, _ => True

def freezeMonitor (platform : Platform) (expectedHead : Option LedgerHead) : Monitor FreezeOp.Answer FreezeStage where
  allowed := FreezeStage.mayAsk expectedHead
  step s op ans s' := s' = s.advance op ans ∧ RestoresOwn platform op ans

/-- What was restored was read and taken. -/
def FreezeStage.Concluded (s : FreezeStage) (r : Throwing (Option HydrateReport)) : Prop :=
  ∀ report, r = .ok (some report) → ∃ epoch verifyRead allRead, s = restored epoch verifyRead allRead

/-- A report is only of what was restored. -/
def FreezeStage.Reports (s : FreezeStage) (r : Throwing HydrateReport) : Prop := s.Concluded (r.map some)

section Programs
variable {platform : Platform} {guard : VadunoGuard} {expectedHead : Option LedgerHead} {clear : Option Bool}

theorem inWorld_serves {op : Op} (allowed : looking.allowed clear op) :
    (inWorld () op).Meets (freezeMonitor platform expectedHead)
      (Serves looking (fun clear _ s => s = .calling clear) clear op) (.calling clear) := by
  unfold inWorld
  refine (meets_bind _ _ _).mpr ⟨allowed, ?_⟩
  rintro ans _ ⟨rfl, -⟩
  exact ⟨look clear op ans, rfl, rfl⟩

theorem carried_concludes {p : Program α} (looks : p.Meets looking (fun _ _ => True) none) :
    ((fun _ => none) <$> p.carry inWorld () : FreezeProgram (Option HydrateReport)).Meets
      (freezeMonitor platform expectedHead) FreezeStage.Concluded (.calling none) := by
  refine (meets_map _ _ _).mpr ((looks.carry (fun clear _ s => s = .calling clear) ?_ rfl).mono ?_)
  · rintro clear ⟨⟩ _ op rfl allowed
    exact inWorld_serves allowed
  · rintro s (e | ⟨result, _⟩) _ report done
    · cases done
    · cases done

theorem unfreeze_concludes :
    ((fun _ => none) <$> unfreeze : FreezeProgram (Option HydrateReport)).Meets (freezeMonitor platform expectedHead)
      FreezeStage.Concluded (.calling none) := by
  unfold unfreeze
  refine (meets_map _ _ _).mpr ((meets_bind _ _ _).mpr ⟨trivial, ?_⟩)
  rintro reason _ ⟨rfl, -⟩
  refine (meets_tryCatch _ _ _).mpr ((Async.meets_orThrow _ _).mpr ⟨False.elim, ?_⟩)
  rintro appended _ ⟨rfl, -⟩
  cases appended with
  | ok _ =>
    rintro report ⟨⟩
  | error e =>
    refine ⟨False.elim, ?_⟩
    rintro _ _ ⟨rfl, -⟩ report ⟨⟩

theorem readAll_concludes {epoch : ℕ} {verifyRead : Throwing (List LedgerEntry)} :
    (do
      let allRead ← readAll platform expectedHead verifyRead
      Async.orThrow (FreezeOp.ask (.restore expectedHead epoch verifyRead allRead)) :
        FreezeProgram HydrateReport).Meets (freezeMonitor platform expectedHead) FreezeStage.Reports
      (.verifying epoch verifyRead) := by
  unfold readAll
  by_cases passed : passes platform expectedHead verifyRead = true
  · rw [if_pos passed]
    refine (meets_bind _ _ _).mpr ⟨trivial, ?_⟩
    rintro allRead _ ⟨rfl, -⟩
    refine (Async.meets_orThrow _ _).mpr ⟨⟨rfl, rfl, rfl, rfl⟩, ?_⟩
    rintro report _ ⟨rfl, -⟩
    cases report with
    | ok report => exact fun _ _ => ⟨_, _, _, rfl⟩
    | error e => rintro _ ⟨⟩
  · rw [if_neg passed]
    refine (Async.meets_orThrow _ _).mpr ⟨rfl, ?_⟩
    rintro report _ ⟨rfl, own⟩
    cases report with
    | ok report => exact absurd own passed
    | error e => rintro _ ⟨⟩

theorem restoring_concludes {epoch : ℕ} :
    (restoring platform expectedHead epoch).Meets (freezeMonitor platform expectedHead) FreezeStage.Reports (.stamped epoch) := by
  unfold restoring
  refine (meets_bind _ _ _).mpr ⟨trivial, ?_⟩
  rintro last _ ⟨rfl, -⟩
  refine (meets_bind _ _ _).mpr ⟨rfl, ?_⟩
  rintro _ _ ⟨rfl, -⟩
  refine (meets_bind _ _ _).mpr ⟨trivial, ?_⟩
  rintro verifyRead _ ⟨rfl, -⟩
  exact readAll_concludes

theorem hydrating_concludes {epoch : ℕ} :
    (hydrating platform expectedHead epoch).Meets (freezeMonitor platform expectedHead) FreezeStage.Reports (.stamped epoch) := by
  unfold hydrating
  refine (meets_bind _ _ _).mpr ⟨trivial, ?_⟩
  rintro hydrated _ ⟨rfl, -⟩
  change Meets _ _ (ite _ _ _) _
  split_ifs
  · rintro report ⟨⟩
  · exact restoring_concludes

theorem hydrate_concludes :
    (some <$> hydrate platform expectedHead).Meets (freezeMonitor platform expectedHead) FreezeStage.Concluded
      .called := by
  unfold hydrate
  refine (meets_map _ _ _).mpr ((meets_bind _ _ _).mpr ⟨trivial, ?_⟩)
  rintro epoch _ ⟨rfl, -⟩
  refine (meets_bracket _ _ _ _).mpr ⟨trivial, ?_⟩
  rintro _ _ ⟨rfl, -⟩
  refine hydrating_concludes.mono fun s r reported => ?_
  have leaves : s.mayAsk expectedHead (.guard (.leave .critical)) := by
    cases s with
    | calling clear => exact False.elim
    | _ => trivial
  refine ⟨leaves, ?_⟩
  rintro _ _ ⟨rfl, -⟩ report settled
  obtain ⟨epoch, verifyRead, allRead, rfl⟩ := reported report settled
  exact ⟨epoch, verifyRead, allRead, rfl⟩

/-- Where a call begins. -/
def FreezeCall.begun : FreezeCall → FreezeStage
  | .hydrate _ => .called
  | _ => .calling none

/-- The head that a call is told to expect. -/
def FreezeCall.head : FreezeCall → Option LedgerHead
  | .hydrate expectedHead => expectedHead
  | _ => none

theorem program_concludes (call : FreezeCall) : (call.program platform guard).Meets (freezeMonitor platform call.head)
    FreezeStage.Concluded call.begun := by
  cases call with
  | guarded call => exact carried_concludes call.looks
  | freeze reason =>
    refine carried_concludes (harmless_looks (VadunoGuard.freeze_asks.widen fun _ => isHarmless_of_isDeciding) none)
  | unfreeze => exact unfreeze_concludes
  | hydrate expectedHead => exact hydrate_concludes

end Programs

end World
end Vaduno.Guard
