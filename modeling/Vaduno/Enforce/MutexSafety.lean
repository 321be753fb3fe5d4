import Vaduno.Enforce.FileMutex

/-! What the lock file excludes. The processes share the path of the file, a wall clock and nothing
else; a live holder's heartbeat keeps its file fresh, and a crashed process takes no further step.
Unlinking does not look at what it removes: the exclusion rests on each unlink meeting the file that
its process last looked at. -/
namespace Vaduno.Enforce
open Async Ecma

structure LockFile (ι : Type) where
  /-- No two files created ever carry one number. -/
  number : ℕ
  creator : ι
  content : JsString
  mtimeMs : ℤ

structure LockWorld (ι : Type) where
  /-- What stands at the lock path. -/
  file : Option (LockFile ι)
  clock : ℤ
  next : ℕ
  /-- The file that a process has created and relies on. -/
  held : ι → Option ℕ
  /-- The file that a process last looked at. -/
  seen : ι → Option ℕ
  crashed : ι → Bool
  /-- Whether a process has ever removed the file of another live holder. -/
  robbed : Bool

namespace LockWorld
variable {ι : Type}

/-- No lock file was ever created. -/
def empty (clock : ℤ) : LockWorld ι := ⟨none, clock, 0, fun _ => none, fun _ => none, fun _ => false, false⟩

/-- Before a step, heartbeats may have touched the file, time may have passed and processes may have
crashed. -/
def drifted (w : LockWorld ι) (mtimeMs clock : ℤ) (crashed : ι → Bool) : LockWorld ι :=
  { w with
    file := w.file.map fun f => { f with mtimeMs := mtimeMs }
    clock := clock
    crashed := crashed }

/-- The heartbeat of every live holder has landed within the staleness window. -/
def Fresh (staleMs : ℤ) (w : LockWorld ι) : Prop :=
  ∀ f ∈ w.file, ∀ j, w.crashed j = false → w.held j = some f.number → w.clock - f.mtimeMs ≤ staleMs

variable [DecidableEq ι] (w : LockWorld ι) (i : ι)

def created : LockWorld ι :=
  { w with
    file := some ⟨w.next, i, [], w.clock⟩
    next := w.next + 1
    held := Function.update w.held i (some w.next) }

/-- Writing goes to the file that was opened, wherever it is by now. -/
def written (text : JsString) : LockWorld ι :=
  { w with file := w.file.map fun f =>
      if w.held i = some f.number then { f with content := text, mtimeMs := w.clock } else f }

def dropped : LockWorld ι := { w with held := Function.update w.held i none }

def looked : LockWorld ι := { w with seen := Function.update w.seen i (w.file.map (·.number)) }

/-- Whether removing the file robs somebody: its creator lives, and relies on it. -/
def robs (f : LockFile ι) : Bool :=
  f.creator ≠ i ∧ w.crashed f.creator = false ∧ w.held f.creator = some f.number

def removed : LockWorld ι := { w with file := none, robbed := w.robbed || w.file.any (w.robs i) }

/-- What an operation answers in the world it meets, and the world it leaves. -/
def Effect : (op : MutexOp) → op.Answer → LockWorld ι → Prop
  | .makeDir, _, w' | .create, .error _, w' | .stat, .error _, w' | .readFile, .error _, w'
  | .remove, .error _, w' => w' = w
  | .create, .ok _, w' => w.file = none ∧ w' = w.created i
  | .writeToken token, .ok _, w' => w' = w.written i token
  | .writeToken token, .error _, w' => ∃ part, part <+: token ∧ w' = (w.written i part).dropped i
  | .stat, .ok mtimeMs, w' => ∃ f, w.file = some f ∧ f.mtimeMs = mtimeMs ∧ w' = w.looked i
  | .time, clocks, w' => clocks.1 = w.clock ∧ w' = w
  | .readFile, .ok text, w' => ∃ f, w.file = some f ∧ f.content = text ∧ w' = w.looked i
  | .remove, .ok _, w' => w' = w.removed i
  | .work, _, w' => w' = w.dropped i
  | .rest, never, _ => nomatch never

end LockWorld

section Answers
variable {ι : Type} [DecidableEq ι]

/-- The processes that have not crashed take their steps in any order, live holders staying fresh; a
further condition may be laid on each step. -/
def lockAnswers (staleMs : ℤ) (within : LockWorld ι → LockWorld ι → ι → MutexOp → Prop) :
    Answers MutexOp.Answer (LockWorld ι) ι := fun w i op ans w' =>
  ∃ mtimeMs clock crashed, (∀ j, w.crashed j = true → crashed j = true) ∧ crashed i = false ∧
    (w.drifted mtimeMs clock crashed).Fresh staleMs ∧ within w (w.drifted mtimeMs clock crashed) i op ∧
    (w.drifted mtimeMs clock crashed).Effect i op ans w'

/-- The wall clock is not set back, and an unlink meets no file but the one its process last looked
at. -/
def Careful (w met : LockWorld ι) (i : ι) (op : MutexOp) : Prop :=
  w.clock ≤ met.clock ∧ (op = .remove → ∀ f ∈ met.file, met.seen i = some f.number)

end Answers

/-- The process believes that it holds the lock: it is in its critical section. -/
def Inside : MutexProgram Unit → Prop
  | .await .work _ => True
  | _ => False

instance : DecidablePred Inside := fun p => by
  unfold Inside
  split <;> infer_instance

/-! ### One process -/

/-- What a process has learned. -/
structure Watch where
  /-- A time on the wall clock that has come. -/
  late : ℤ
  /-- Whether it relies on a file it created. -/
  holding : Prop
  /-- Whether what it last looked at is nobody's but its own. -/
  cleared : Prop

def Watch.relies (φ : Watch) (holding : Prop) : Watch := { φ with holding := holding }

def Watch.clears (φ : Watch) (cleared : Prop) : Watch := { φ with cleared := cleared }

@[simp] theorem Watch.holding_relies (φ : Watch) : (φ.relies P).holding = P := rfl

@[simp] theorem Watch.cleared_clears (φ : Watch) : (φ.clears P).cleared = P := rfl

/-- A file is removed only once it is cleared: it is older than the staleness window allows, or it
carries the own token. -/
def watching (staleMs : ℤ) (token : JsString) : Monitor MutexOp.Answer Watch where
  allowed φ op :=
    match op with
    | .writeToken text => φ.holding ∧ text = token
    | .work => φ.holding
    | .remove => ¬φ.holding ∧ φ.cleared
    | _ => True
  step φ op ans φ' :=
    match op, ans with
    | .create, .ok _ => φ' = φ.relies True
    | .writeToken _, .error _ => φ' = φ.relies False
    | .stat, .ok mtimeMs => φ' = φ.clears (mtimeMs + staleMs < φ.late)
    | .time, clocks => φ.late ≤ clocks.1 ∧ φ' = { φ with late := clocks.1 }
    | .readFile, .ok text => φ' = φ.clears (text = token)
    | .work, _ => φ' = φ.relies False
    | _, _ => φ' = φ

section Watching
variable {opts : FileMutexOpts} {lockPath token : JsString}

open FileMutex

/-- Without a file of its own, and knowing that what it flagged was stale. -/
structure Watch.Waits (opts : FileMutexOpts) (flagged : Option Flag) (φ : Watch) : Prop where
  unheld : ¬φ.holding
  stale : ∀ flag ∈ flagged, flag.mtimeMs + opts.stale < φ.late

theorem Watch.Waits.forget {φ : Watch} (waits : φ.Waits opts flagged) : φ.Waits opts none :=
  ⟨waits.unheld, nofun⟩

theorem time_meets {post : Watch → Except Thrown α → Prop} {f : ℤ × ℤ → MutexProgram α} {φ : Watch}
    (rest : ∀ clocks : ℤ × ℤ, φ.late ≤ clocks.1 →
      (f clocks).Meets (watching opts.stale token) post { φ with late := clocks.1 }) :
    (MutexOp.ask .time >>= f).Meets (watching opts.stale token) post φ := by
  refine ⟨trivial, ?_⟩
  rintro clocks _ ⟨later, rfl⟩
  exact rest clocks later

theorem Watch.Waits.later {φ : Watch} (waits : φ.Waits opts flagged) (later : φ.late ≤ t) :
    ({ φ with late := t } : Watch).Waits opts flagged :=
  ⟨waits.unheld, fun flag member => (waits.stale flag member).trans_le later⟩

/-- The last attempt modelled is followed by no answer. -/
theorem endless_meets {post : Watch → Except Thrown α → Prop} {φ : Watch} :
    (endless : MutexProgram α).Meets (watching opts.stale token) post φ :=
  ⟨trivial, fun never => nomatch never⟩

theorem removeUntil_meets {deadlineMs : ℤ} (unlinks : ℕ) {φ : Watch} (waits : φ.Waits opts flagged)
    (cleared : φ.cleared) :
    (removeUntil deadlineMs unlinks).Meets (watching opts.stale token) (fun φ _ => φ.Waits opts flagged)
      φ := by
  induction unlinks generalizing φ with
  | zero => exact endless_meets
  | succ unlinks ih =>
    refine ⟨⟨waits.unheld, cleared⟩, ?_⟩
    rintro (e | ⟨⟩) _ rfl
    · change (ite _ _ _ : MutexProgram Bool).Meets _ _ _
      split
      · exact waits
      · refine time_meets fun clocks later => ?_
        split
        · exact waits.later later
        · exact ih (waits.later later) cleared
    · exact waits

theorem waitFor_meets {attempt : Attempt} {again : MutexProgram Unit}
    {post : Watch → Except Thrown Unit → Prop} {φ : Watch} (waits : φ.Waits opts flagged)
    (given_up : ∀ φ e, post φ (.error e))
    (meets : ∀ {φ : Watch}, φ.Waits opts flagged → again.Meets (watching opts.stale token) post φ) :
    (waitFor opts lockPath attempt again).Meets (watching opts.stale token) post φ := by
  refine time_meets fun clocks later => ?_
  split
  · exact given_up _ _
  · exact meets (waits.later later)

/-- A file is removed only where it was flagged with a time of change that it still has: the wall
clock had passed its staleness window before the last look. -/
theorem reclaim_meets {unlinks : ℕ} {attempt : Attempt} {again : Option Flag → MutexProgram Unit}
    {post : Watch → Except Thrown Unit → Prop} {φ : Watch} (waits : φ.Waits opts flagged)
    (given_up : ∀ φ e, post φ (.error e))
    (meets : ∀ {flagged} {φ : Watch}, φ.Waits opts flagged →
      (again flagged).Meets (watching opts.stale token) post φ) :
    (reclaim opts lockPath unlinks attempt flagged again).Meets (watching opts.stale token) post φ := by
  refine ⟨trivial, ?_⟩
  rintro (e | mtimeMs) _ rfl
  · exact waitFor_meets waits.forget given_up meets
  · refine time_meets fun clocks later => ?_
    have unheld : ¬φ.holding := waits.unheld
    split
    · rename_i stale
      have first : Watch.Waits opts (some ⟨mtimeMs, clocks.2⟩)
          ⟨clocks.1, φ.holding, mtimeMs + opts.stale < φ.late⟩ := by
        refine ⟨unheld, ?_⟩
        rintro _ ⟨⟩
        change mtimeMs + opts.stale < clocks.1
        omega
      cases flagged with
      | none => exact waitFor_meets first given_up meets
      | some flag =>
        have again : Watch.Waits opts (some flag)
            ⟨clocks.1, φ.holding, mtimeMs + opts.stale < φ.late⟩ :=
          ⟨unheld, fun _ member => (waits.stale _ member).trans_le later⟩
        change (ite _ _ _ : MutexProgram Unit).Meets _ _ _
        split
        · exact waitFor_meets first given_up meets
        rename_i untouched
        split
        · have cleared : mtimeMs + opts.stale < φ.late := by
            rw [← not_not.mp untouched]
            exact waits.stale flag rfl
          refine Meets.bind (time_meets fun _ later =>
            removeUntil_meets unlinks (again.later later) cleared) ?_ fun φ e _ => given_up φ e
          intro φ gone waits
          split
          · exact meets waits.forget
          · exact waitFor_meets waits given_up meets
        · exact waitFor_meets again given_up meets
    · have young : Watch.Waits opts none ⟨clocks.1, φ.holding, mtimeMs + opts.stale < φ.late⟩ :=
        ⟨unheld, nofun⟩
      exact waitFor_meets young given_up meets

/-- Whoever acquires holds a file that it has created and written. -/
def Acquired (φ : Watch) : Except Thrown Unit → Prop
  | .ok _ => φ.holding
  | .error _ => True

theorem acquireLoop_meets {unlinks : ℕ} {startMs : ℤ} (more attempts : ℕ) {φ : Watch}
    (waits : φ.Waits opts flagged) :
    (acquireLoop opts lockPath token unlinks startMs more attempts flagged).Meets
      (watching opts.stale token) Acquired φ := by
  induction more generalizing attempts flagged φ with
  | zero => exact endless_meets
  | succ more ih =>
    have refused : ∀ {φ : Watch} (e : SystemError), φ.Waits opts flagged →
        (if e.code ∈ contended then
          reclaim opts lockPath unlinks ⟨startMs, attempts + 1, e.code⟩ flagged
            fun flagged => acquireLoop opts lockPath token unlinks startMs more (attempts + 1) flagged
        else rethrow e).Meets (watching opts.stale token) Acquired φ := by
      intro φ e waits
      split
      · exact reclaim_meets waits (fun _ _ => trivial) (ih _)
      · trivial
    refine ⟨trivial, ?_⟩
    rintro (e | ⟨⟩) _ rfl
    · exact refused e waits
    · refine ⟨⟨trivial, rfl⟩, ?_⟩
      rintro (e | ⟨⟩) _ rfl
      · exact refused e ⟨id, waits.stale⟩
      · exact trivial

theorem releaseUntil_meets {deadlineMs : ℤ} (unlinks : ℕ) {φ : Watch} (unheld : ¬φ.holding) :
    (releaseUntil token deadlineMs unlinks).Meets (watching opts.stale token) (fun _ _ => True) φ := by
  induction unlinks generalizing φ with
  | zero => exact endless_meets
  | succ unlinks ih =>
    have failed : ∀ {φ : Watch} (e : SystemError), ¬φ.holding →
        (if e.code ∉ releaseTransient then return ()
        else do
          let clocks ← MutexOp.ask .time
          if clocks.2 ≥ deadlineMs then return () else releaseUntil token deadlineMs unlinks :
          MutexProgram Unit).Meets (watching opts.stale token) (fun _ _ => True) φ := by
      intro φ e unheld
      split
      · trivial
      · refine time_meets fun clocks later => ?_
        split
        · trivial
        · exact ih unheld
    refine ⟨trivial, ?_⟩
    rintro (e | current) _ rfl
    · exact failed e unheld
    · change (ite _ _ _ : MutexProgram Unit).Meets _ _ _
      split
      · rename_i own
        refine ⟨⟨unheld, own⟩, ?_⟩
        rintro (e | ⟨⟩) _ rfl
        · exact failed e unheld
        · trivial
      · trivial

theorem run_meets (unlinks more : ℕ) {φ : Watch} (unheld : ¬φ.holding) :
    (FileMutex.run opts lockPath token unlinks more).Meets (watching opts.stale token)
      (fun _ _ => True) φ := by
  have acquire_meets : (acquire opts lockPath token unlinks more).Meets (watching opts.stale token)
      Acquired φ := by
    refine time_meets fun clocks later => ⟨trivial, ?_⟩
    rintro (e | ⟨⟩) _ rfl
    · trivial
    · exact acquireLoop_meets more 0 ⟨unheld, nofun⟩
  refine Meets.bind acquire_meets ?_ fun _ _ _ => trivial
  rintro φ ⟨⟩ holding
  refine ⟨holding, ?_⟩
  rintro outcome _ rfl
  have release_meets : (release token unlinks).Meets (watching opts.stale token) (fun _ _ => True)
      ⟨φ.late, False, φ.cleared⟩ := by
    unfold release
    split
    · trivial
    · exact time_meets fun clocks later => releaseUntil_meets unlinks id
  change (release token unlinks >>= fun _ => settled outcome).Meets _ _ _
  exact Meets.bind release_meets (fun _ _ _ => trivial) fun _ _ _ => trivial

end Watching

/-! ### All processes -/

section Guarded
variable {ι : Type} {opts : FileMutexOpts} {token : ι → JsString} {w : LockWorld ι} {phases : ι → Watch}

/-- What ties the processes to the lock file. A crashed process no longer counts as a holder, though
its file may stay. -/
structure Guarded (token : ι → JsString) (w : LockWorld ι) (phases : ι → Watch) : Prop where
  unrobbed : w.robbed = false
  file_below : ∀ f ∈ w.file, f.number < w.next
  held_below : ∀ j, ∀ n ∈ w.held j, n < w.next
  seen_below : ∀ j, ∀ n ∈ w.seen j, n < w.next
  /-- A live holder's file stands at the path. -/
  owned : ∀ j, w.crashed j = false → ∀ n ∈ w.held j, ∃ f ∈ w.file, f.number = n ∧ f.creator = j
  /-- A lock file carries its creator's token or a beginning of it. -/
  marked : ∀ f ∈ w.file, f.content <+: token f.creator
  holding : ∀ j, (phases j).holding ↔ w.held j ≠ none
  /-- What a process may remove, nobody else who lives holds. -/
  spared : ∀ j, (phases j).cleared → ∀ k, w.crashed k = false →
    ∀ n ∈ w.held k, w.seen j = some n → k = j
  late : ∀ j, (phases j).late ≤ w.clock

theorem Guarded.drifted (guarded : Guarded token w phases) {mtimeMs clock : ℤ} {crashed : ι → Bool}
    (still : ∀ j, w.crashed j = true → crashed j = true) (later : w.clock ≤ clock) :
    Guarded token (w.drifted mtimeMs clock crashed) phases := by
  have alive : ∀ j, crashed j = false → w.crashed j = false := by
    intro j lives
    by_contra gone
    exact Bool.false_ne_true (lives.symm.trans (still j (eq_true_of_ne_false gone)))
  refine { guarded with file_below := ?_, owned := ?_, marked := ?_, spared := ?_, late := ?_ }
  · intro f member
    obtain ⟨f, stood, rfl⟩ := Option.map_eq_some_iff.mp member
    exact guarded.file_below f stood
  · intro j lives n member
    obtain ⟨f, stood, number, creator⟩ := guarded.owned j (alive j lives) n member
    exact ⟨_, Option.map_eq_some_iff.mpr ⟨f, stood, rfl⟩, number, creator⟩
  · intro f member
    obtain ⟨f, stood, rfl⟩ := Option.map_eq_some_iff.mp member
    exact guarded.marked f stood
  · exact fun j cleared k lives => guarded.spared j cleared k (alive k lives)
  · exact fun j => (guarded.late j).trans later

theorem Guarded.written (guarded : Guarded token w phases) {i : ι} (lives : w.crashed i = false)
    (part : text <+: token i) : Guarded token (w.written i text) phases := by
  refine { guarded with file_below := ?_, owned := ?_, marked := ?_ }
  · intro f member
    obtain ⟨f, stood, rfl⟩ := Option.map_eq_some_iff.mp member
    split <;> exact guarded.file_below f stood
  · intro j lives n held
    obtain ⟨f, stood, number, creator⟩ := guarded.owned j lives n held
    refine ⟨_, Option.map_eq_some_iff.mpr ⟨f, stood, rfl⟩, ?_⟩
    split <;> exact ⟨number, creator⟩
  · intro f member
    obtain ⟨f, stood, rfl⟩ := Option.map_eq_some_iff.mp member
    split
    · rename_i opened
      obtain ⟨g, same, -, creator⟩ := guarded.owned i lives _ opened
      cases stood.symm.trans same
      exact creator ▸ part
    · exact guarded.marked f stood

variable [DecidableEq ι]

/-- What a step does not teach a process is as it was for every process. -/
theorem update_same {α : Type} {i : ι} {φ : Watch} (field : Watch → α) (same : field φ = field (phases i))
    (j : ι) : field (Function.update phases i φ j) = field (phases j) := by
  rcases eq_or_ne j i with rfl | other
  · rw [Function.update_self, same]
  · rw [Function.update_of_ne other]

@[simp] theorem late_relies : (Function.update phases i ((phases i).relies P) j).late = (phases j).late :=
  update_same Watch.late (by rfl) j

@[simp] theorem cleared_relies :
    (Function.update phases i ((phases i).relies P) j).cleared = (phases j).cleared :=
  update_same Watch.cleared (by rfl) j

@[simp] theorem late_clears : (Function.update phases i ((phases i).clears P) j).late = (phases j).late :=
  update_same Watch.late (by rfl) j

@[simp] theorem holding_clears :
    (Function.update phases i ((phases i).clears P) j).holding = (phases j).holding :=
  update_same Watch.holding (by rfl) j

theorem Guarded.phase (guarded : Guarded token w phases) {i : ι} {φ : Watch}
    (holding : φ.holding ↔ w.held i ≠ none)
    (spared : φ.cleared → ∀ k, w.crashed k = false → ∀ n ∈ w.held k, w.seen i = some n → k = i)
    (late : φ.late ≤ w.clock) : Guarded token w (Function.update phases i φ) := by
  refine { guarded with holding := ?_, spared := ?_, late := ?_ }
  all_goals
    intro j
    rcases eq_or_ne j i with rfl | other
  · simpa using holding
  · simpa [other] using guarded.holding j
  · simpa using spared
  · simpa [other] using guarded.spared j
  · simpa using late
  · simpa [other] using guarded.late j

theorem Guarded.created (guarded : Guarded token w phases) (i : ι) (vacant : w.file = none) :
    Guarded token (w.created i) (Function.update phases i ((phases i).relies True)) := by
  have unheld : ∀ j, w.crashed j = false → w.held j = none := by
    intro j lives
    cases held : w.held j with
    | none => rfl
    | some n =>
      obtain ⟨f, stood, -⟩ := guarded.owned j lives n held
      rw [vacant] at stood
      cases stood
  -- The new file is the only one that somebody who lives holds, and nobody has looked at it.
  have held_created : ∀ j, w.crashed j = false → ∀ n ∈ (w.created i).held j, j = i ∧ n = w.next := by
    intro j lives n held
    rcases eq_or_ne j i with rfl | other
    · exact ⟨rfl, by simpa [LockWorld.created, eq_comm] using held⟩
    · simp [LockWorld.created, other, unheld j lives] at held
  refine ⟨guarded.unrobbed, ?_, ?_, ?_, ?_, ?_, ?_, ?_, ?_⟩
  · rintro f ⟨⟩
    exact Nat.lt_succ_self _
  · intro j n held
    rcases eq_or_ne j i with rfl | other
    · have same : w.next = n := by simpa [LockWorld.created] using held
      exact same ▸ Nat.lt_succ_self _
    · have before : n ∈ w.held j := by simpa [LockWorld.created, other] using held
      exact Nat.lt_succ_of_lt (guarded.held_below j n before)
  · exact fun j n saw => Nat.lt_succ_of_lt (guarded.seen_below j n saw)
  · intro j lives n held
    obtain ⟨rfl, rfl⟩ := held_created j lives n held
    exact ⟨_, rfl, rfl, rfl⟩
  · rintro f ⟨⟩
    exact List.nil_prefix
  · intro j
    rcases eq_or_ne j i with rfl | other
    · simp [LockWorld.created]
    · simpa [LockWorld.created, other] using guarded.holding j
  · intro j cleared k lives n held saw
    obtain ⟨rfl, rfl⟩ := held_created k lives n held
    exact absurd (guarded.seen_below j _ saw) (lt_irrefl _)
  · exact fun j => late_relies.trans_le (guarded.late j)

theorem Guarded.dropped (guarded : Guarded token w phases) (i : ι) :
    Guarded token (w.dropped i) (Function.update phases i ((phases i).relies False)) := by
  have kept : ∀ j, ∀ n ∈ (w.dropped i).held j, n ∈ w.held j := by
    intro j n held
    rcases eq_or_ne j i with rfl | other
    · simp [LockWorld.dropped] at held
    · simpa [LockWorld.dropped, other] using held
  refine ⟨guarded.unrobbed, guarded.file_below, ?_, guarded.seen_below, ?_, guarded.marked, ?_, ?_, ?_⟩
  · exact fun j n held => guarded.held_below j n (kept j n held)
  · exact fun j lives n held => guarded.owned j lives n (kept j n held)
  · intro j
    rcases eq_or_ne j i with rfl | other
    · simp [LockWorld.dropped]
    · simpa [LockWorld.dropped, other] using guarded.holding j
  · intro j cleared k lives n held
    rw [cleared_relies] at cleared
    exact guarded.spared j cleared k lives n (kept k n held)
  · exact fun j => late_relies.trans_le (guarded.late j)

theorem Guarded.looked (guarded : Guarded token w phases) (i : ι) {cleared : Prop}
    (spared : cleared → ∀ f ∈ w.file, ∀ k, w.crashed k = false → f.number ∈ w.held k → k = i) :
    Guarded token (w.looked i) (Function.update phases i ((phases i).clears cleared)) := by
  have seen_looked : ∀ n ∈ (w.looked i).seen i, ∃ f ∈ w.file, f.number = n := by
    intro n saw
    have looked : w.file.map (·.number) = some n := by simpa [LockWorld.looked] using saw
    exact Option.map_eq_some_iff.mp looked
  have seen_other : ∀ j, j ≠ i → (w.looked i).seen j = w.seen j :=
    fun j other => Function.update_of_ne other _ _
  refine { guarded with seen_below := ?_, holding := ?_, spared := ?_, late := ?_ }
  · intro j n saw
    rcases eq_or_ne j i with rfl | other
    · obtain ⟨f, stood, rfl⟩ := seen_looked n saw
      exact guarded.file_below f stood
    · rw [seen_other j other] at saw
      exact guarded.seen_below j n saw
  · intro j
    rw [holding_clears]
    exact guarded.holding j
  · intro j isCleared k lives n held saw
    rcases eq_or_ne j i with rfl | other
    · obtain ⟨f, stood, rfl⟩ := seen_looked n saw
      exact spared (by simpa using isCleared) f stood k lives held
    · rw [seen_other j other] at saw
      rw [Function.update_of_ne other] at isCleared
      exact guarded.spared j isCleared k lives n held saw
  · exact fun j => late_clears.trans_le (guarded.late j)

/-- Removing the file that one last looked at, and is cleared to remove, takes it from nobody. -/
theorem Guarded.removed (guarded : Guarded token w phases) {i : ι} (unheld : ¬(phases i).holding)
    (cleared : (phases i).cleared) (met : ∀ f ∈ w.file, w.seen i = some f.number) :
    Guarded token (w.removed i) phases := by
  have nobody : ∀ f ∈ w.file, ∀ k, w.crashed k = false → f.number ∉ w.held k := by
    intro f stood k lives held
    obtain rfl := guarded.spared i cleared k lives _ held (met f stood)
    refine unheld ((guarded.holding k).mpr ?_)
    rw [show w.held k = some f.number from held]
    exact Option.some_ne_none _
  have robs_none : w.file.any (w.robs i) = false := by
    cases stood : w.file with
    | none => rfl
    | some f =>
      refine decide_eq_false ?_
      rintro ⟨-, lives, held⟩
      exact nobody f stood f.creator lives held
  refine { guarded with unrobbed := ?_, file_below := nofun, owned := ?_, marked := nofun }
  · exact Bool.or_eq_false_iff.mpr ⟨guarded.unrobbed, robs_none⟩
  · intro j lives n held
    obtain ⟨f, stood, rfl, -⟩ := guarded.owned j lives n held
    exact absurd held (nobody f stood j lives)

variable {staleMs : ℤ} {i : ι} {op : MutexOp} {ans : op.Answer} {w' : LockWorld ι}

/-- One operation, in the world it meets. -/
theorem Guarded.effect (guarded : Guarded token w phases) (distinct : ∀ i k, token i <+: token k → i = k)
    (lives : w.crashed i = false) (fresh : w.Fresh staleMs)
    (met : op = .remove → ∀ f ∈ w.file, w.seen i = some f.number)
    (allowed : (watching staleMs (token i)).allowed (phases i) op) (effect : w.Effect i op ans w') :
    ∃ φ, (watching staleMs (token i)).step (phases i) op ans φ ∧
      Guarded token w' (Function.update phases i φ) := by
  have unmoved : Guarded token w (Function.update phases i (phases i)) := by
    rwa [Function.update_eq_self]
  cases op with
  | makeDir =>
    obtain rfl := effect
    exact ⟨_, rfl, unmoved⟩
  | create =>
    rcases ans with e | ⟨⟩
    · obtain rfl := effect
      exact ⟨_, rfl, unmoved⟩
    · obtain ⟨vacant, rfl⟩ := effect
      exact ⟨_, rfl, guarded.created i vacant⟩
  | writeToken text =>
    obtain ⟨-, rfl⟩ := allowed
    rcases ans with e | ⟨⟩
    · obtain ⟨part, beginning, rfl⟩ := effect
      exact ⟨_, rfl, (guarded.written lives beginning).dropped i⟩
    · obtain rfl := effect
      refine ⟨_, rfl, ?_⟩
      rw [Function.update_eq_self]
      exact guarded.written lives List.prefix_rfl
  | stat =>
    rcases ans with e | mtimeMs
    · obtain rfl := effect
      exact ⟨_, rfl, unmoved⟩
    · obtain ⟨f, stood, rfl, rfl⟩ := effect
      refine ⟨_, rfl, guarded.looked i fun stale g same k alive held => ?_⟩
      -- A live holder's file would be fresh.
      obtain rfl := Option.some.inj (stood.symm.trans same)
      have young := fresh f same k alive held
      have passed := guarded.late i
      omega
  | time =>
    obtain ⟨now, rfl⟩ := effect
    refine ⟨_, ⟨(guarded.late i).trans_eq now.symm, rfl⟩, ?_⟩
    exact guarded.phase (guarded.holding i) (guarded.spared i) now.le
  | readFile =>
    rcases ans with e | text
    · obtain rfl := effect
      exact ⟨_, rfl, unmoved⟩
    · obtain ⟨f, stood, rfl, rfl⟩ := effect
      refine ⟨_, rfl, guarded.looked i fun own g same k alive held => ?_⟩
      obtain rfl := Option.some.inj (stood.symm.trans same)
      have creator : i = f.creator := distinct i f.creator (own ▸ guarded.marked f same)
      obtain ⟨g, stands, -, holder⟩ := guarded.owned k alive _ held
      obtain rfl := Option.some.inj (stood.symm.trans stands)
      exact holder.symm.trans creator.symm
  | remove =>
    rcases ans with e | ⟨⟩
    · obtain rfl := effect
      exact ⟨_, rfl, unmoved⟩
    · obtain rfl := effect
      refine ⟨_, rfl, ?_⟩
      rw [Function.update_eq_self]
      exact guarded.removed allowed.1 allowed.2 (met rfl)
  | work =>
    obtain rfl := effect
    exact ⟨_, rfl, guarded.dropped i⟩
  | rest => exact nomatch ans

theorem Guarded.step (guarded : Guarded token w phases) (distinct : ∀ i k, token i <+: token k → i = k)
    (allowed : (watching staleMs (token i)).allowed (phases i) op)
    (answered : lockAnswers staleMs Careful w i op ans w') :
    ∃ φ, (watching staleMs (token i)).step (phases i) op ans φ ∧
      Guarded token w' (Function.update phases i φ) := by
  obtain ⟨mtimeMs, clock, crashed, still, lives, fresh, ⟨later, met⟩, effect⟩ := answered
  exact (guarded.drifted still later).effect distinct lives fresh met allowed effect

end Guarded

section Exclusion
variable {ι : Type} [DecidableEq ι] {opts : FileMutexOpts} {lockPath : JsString} {token : ι → JsString}
  {unlinks more : ι → ℕ} {pool : Pool MutexOp.Answer Thrown Unit (LockWorld ι) ι}
  {events : List (ι × Event MutexOp.Answer)} {clock : ℤ}

/-- Processes that run under one lock file, each with a token of its own. -/
def lockPool (opts : FileMutexOpts) (lockPath : JsString) (token : ι → JsString) (unlinks more : ι → ℕ)
    (clock : ℤ) : Pool MutexOp.Answer Thrown Unit (LockWorld ι) ι :=
  ⟨.empty clock, fun i => FileMutex.run opts lockPath (token i) (unlinks i) (more i)⟩

/-- As long as every unlink meets no file but the one its process last looked at, and the wall clock is
not set back, no two live processes are in their critical sections, and no process has removed the
lock file of another live holder. -/
theorem exclusive_while_careful (distinct : ∀ i k, token i <+: token k → i = k)
    (run : Run (lockAnswers opts.stale Careful) (lockPool opts lockPath token unlinks more clock) events
      pool) :
    (∀ i j, pool.world.crashed i = false → pool.world.crashed j = false →
      Inside (pool.threads i) → Inside (pool.threads j) → i = j) ∧ pool.world.robbed = false := by
  have start : Guarded token (LockWorld.empty clock) fun _ : ι => ⟨clock, False, False⟩ :=
    ⟨rfl, nofun, nofun, nofun, nofun, nofun, by simp [LockWorld.empty], nofun, fun _ => le_rfl⟩
  obtain ⟨phases, guarded, meets⟩ := run.invariant (fun i => watching opts.stale (token i))
    (fun _ _ _ => True) (fun _ => Guarded token) (fun i => run_meets _ _ id) start
    fun _ _ _ _ _ _ _ guarded => guarded.step distinct
  have holds : ∀ i, Inside (pool.threads i) → (phases i).holding := by
    intro i inside
    have allowed := meets i
    cases thread : pool.threads i with
    | done r => rw [thread] at inside; exact inside.elim
    | await op next =>
      rw [thread] at inside allowed
      cases op <;> first | exact inside.elim | exact allowed.1
  -- Whoever is inside, and lives, created the one file that stands.
  have creates : ∀ i, pool.world.crashed i = false → Inside (pool.threads i) →
      ∃ f ∈ pool.world.file, f.creator = i := by
    intro i lives inside
    obtain ⟨n, held⟩ := Option.ne_none_iff_exists'.mp ((guarded.holding i).mp (holds i inside))
    obtain ⟨f, stood, -, creator⟩ := guarded.owned i lives n held
    exact ⟨f, stood, creator⟩
  refine ⟨fun i j alive alive' inside inside' => ?_, guarded.unrobbed⟩
  obtain ⟨f, stood, rfl⟩ := creates i alive inside
  obtain ⟨g, stood', rfl⟩ := creates j alive' inside'
  rw [Option.some.inj (stood.symm.trans stood')]

end Exclusion

section Sample

instance (w : LockWorld (Fin 3)) (staleMs : ℤ) : Decidable (w.Fresh staleMs) := by
  unfold LockWorld.Fresh
  infer_instance

instance (w met : LockWorld (Fin 3)) (i : Fin 3) (op : MutexOp) : Decidable (Careful w met i op) := by
  unfold Careful
  infer_instance

/-- A live holder's heartbeat lands before every step, each step takes fifty milliseconds, and process
0 crashes as soon as another one moves. -/
def sampleMeets (w : LockWorld (Fin 3)) (i : Fin 3) : LockWorld (Fin 3) :=
  let beats := w.file.any fun f => w.crashed f.creator = false ∧ w.held f.creator = some f.number
  let mtimeMs := if beats then w.clock + 50 else w.file.elim 0 (·.mtimeMs)
  w.drifted mtimeMs (w.clock + 50) fun j => w.crashed j || (j = 0 && i ≠ 0)

def sampleAnswer (w : LockWorld (Fin 3)) (i : Fin 3) : (op : MutexOp) → Option (op.Answer × LockWorld (Fin 3))
  | .makeDir => some (.ok (), w)
  | .create => some (if w.file.isNone then (.ok (), w.created i) else (.error ⟨"EEXIST", []⟩, w))
  | .writeToken token => some (.ok (), w.written i token)
  | .stat => some (w.file.elim (.error ⟨"ENOENT", []⟩, w) fun f => (.ok f.mtimeMs, w.looked i))
  | .time => some ((w.clock, w.clock), w)
  | .readFile => some (w.file.elim (.error ⟨"ENOENT", []⟩, w) fun f => (.ok f.content, w.looked i))
  | .remove => some (.ok (), w.removed i)
  | .work | .rest => none

/-- The steps that meet a condition of a caller's choice. -/
def sampleOracle (within : LockWorld (Fin 3) → LockWorld (Fin 3) → Fin 3 → MutexOp → Prop)
    [∀ w met i op, Decidable (within w met i op)] (w : LockWorld (Fin 3)) (i : Fin 3) (op : MutexOp) :
    Option (op.Answer × LockWorld (Fin 3)) :=
  let met := sampleMeets w i
  if met.crashed i = false ∧ met.Fresh 100 ∧ within w met i op then sampleAnswer met i op else none

variable {within : LockWorld (Fin 3) → LockWorld (Fin 3) → Fin 3 → MutexOp → Prop}
  [∀ w met i op, Decidable (within w met i op)] {w w' : LockWorld (Fin 3)} {i : Fin 3} {op : MutexOp}
  {ans : op.Answer}

theorem effect_sampleAnswer (answer : sampleAnswer w i op = some (ans, w')) : w.Effect i op ans w' := by
  cases op <;> simp only [sampleAnswer, Option.some.injEq, Prod.mk.injEq, reduceCtorEq] at answer
  case makeDir | writeToken | remove | time =>
    obtain ⟨rfl, rfl⟩ := answer
    first | rfl | exact ⟨rfl, rfl⟩
  case create =>
    split at answer
    · rename_i vacant
      cases answer
      exact ⟨Option.isNone_iff_eq_none.mp vacant, rfl⟩
    · cases answer
      rfl
  case stat | readFile =>
    cases stood : w.file with
    | none =>
      rw [stood] at answer
      cases answer
      rfl
    | some f =>
      rw [stood] at answer
      cases answer
      exact ⟨f, stood, rfl, rfl⟩

theorem lockAnswers_sampleOracle (answer : sampleOracle within w i op = some (ans, w')) :
    lockAnswers 100 within w i op ans w' := by
  dsimp only [sampleOracle] at answer
  split at answer
  · rename_i fine
    refine ⟨_, _, _, fun j gone => ?_, fine.1, fine.2.1, fine.2.2, effect_sampleAnswer answer⟩
    exact Bool.or_eq_true_iff.mpr (.inl gone)
  · cases answer

def samplePool : Pool MutexOp.Answer Thrown Unit (LockWorld (Fin 3)) (Fin 3) :=
  lockPool ⟨none, none, none, some 100⟩ [] (fun i => [97 + i.val.toUInt16]) (fun _ => 2) (fun _ => 3) 0

theorem run_samplePool (within : LockWorld (Fin 3) → LockWorld (Fin 3) → Fin 3 → MutexOp → Prop)
    [∀ w met i op, Decidable (within w met i op)] (schedule : List (Fin 3)) :
    ∃ events, Run (lockAnswers 100 within) samplePool events
      (Pool.attempt (sampleOracle within) schedule samplePool) := by
  apply Pool.run_attempt
  exact lockAnswers_sampleOracle

theorem sampleToken_distinct (i k : Fin 3)
    (beginning : [97 + i.val.toUInt16] <+: [97 + k.val.toUInt16]) : i = k := by
  revert beginning
  decide +revert +kernel

/-- Process 1 finds the lock of process 0, which has crashed, waits for the confirmation window and
reclaims it. -/
def reclaiming : List (Fin 3) := [0, 0, 0, 0] ++ List.replicate 13 1

/-- Processes 1 and 2 both find the lock of process 0 abandoned, and unlink one after the other. -/
def overtaking : List (Fin 3) :=
  [0, 0, 0, 0] ++ List.replicate 10 1 ++ List.replicate 10 2 ++ List.replicate 3 1 ++ List.replicate 3 2

theorem sample_ends :
    Inside ((Pool.attempt (sampleOracle Careful) reclaiming samplePool).threads 1) ∧
    (let ends := Pool.attempt (sampleOracle fun w met _ _ => w.clock ≤ met.clock) overtaking samplePool
     ends.world.crashed 1 = false ∧ ends.world.crashed 2 = false ∧ Inside (ends.threads 1) ∧
       Inside (ends.threads 2) ∧ ends.world.robbed = true) := by
  decide +kernel

/-- A reclaimed lock. -/
theorem reclaimed_carefully : ∃ events pool,
    Run (lockAnswers 100 Careful) samplePool events pool ∧ Inside (pool.threads 1) ∧
      ((∀ i j, pool.world.crashed i = false → pool.world.crashed j = false →
        Inside (pool.threads i) → Inside (pool.threads j) → i = j) ∧ pool.world.robbed = false) := by
  obtain ⟨events, run⟩ := run_samplePool Careful reclaiming
  refine ⟨events, _, run, sample_ends.1, ?_⟩
  exact @exclusive_while_careful _ _ ⟨none, none, none, some 100⟩ _ _ _ _ _ _ _ sampleToken_distinct run

/-- The wall clock going forward only, the second of two unlinks removes the lock that the first
unlinker has taken since, and both of them are in their critical sections. -/
theorem unlink_robs_new_holder : ∃ events pool,
    Run (lockAnswers 100 fun w met _ _ => w.clock ≤ met.clock) samplePool events pool ∧
      pool.world.crashed 1 = false ∧ pool.world.crashed 2 = false ∧ Inside (pool.threads 1) ∧
      Inside (pool.threads 2) ∧ pool.world.robbed = true := by
  obtain ⟨events, run⟩ := run_samplePool (fun w met _ _ => w.clock ≤ met.clock) overtaking
  exact ⟨events, _, run, sample_ends.2⟩

end Sample
end Vaduno.Enforce
