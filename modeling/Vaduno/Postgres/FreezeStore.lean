import Vaduno.Postgres.SpendLimiter
import Vaduno.Revocation.FreezeStore

/-! The shared kill switch as one row of a database. Each statement takes effect at once; an unfreeze
that is fenced on the epoch of a missing row takes two, and other calls may come in between. -/
namespace Vaduno.Postgres
open Ecma Revocation

/-- The row of `vaduno_freeze`. -/
structure FreezeRow where
  epoch : ℤ
  frozen : Bool
  reason : Option JsString
  frozenBy : Option JsString
  frozenAt : Option JsString

def FreezeRow.toState (row : FreezeRow) : Throwing FreezeState := do
  let epoch ← toSafeInt row.epoch "epoch"
  return ⟨epoch, row.frozen, row.reason, row.frozenBy, row.frozenAt⟩

/-- `btrim(s)`, which takes blanks off both ends. -/
def btrim (s : JsString) : JsString :=
  ((s.dropWhile (· = 32)).reverse.dropWhile (· = 32)).reverse

/-- `NULLIF(s, '')`. -/
def nullIfEmpty (s : JsString) : Option JsString := if s = [] then none else some s

section Table
/- How the driver and the database carry a text parameter, which they may also refuse. -/
variable (bindText : JsString → Throwing JsString)

/-- The parameters of a freeze. -/
def bindFreeze (reason : JsString) (byWhom : Option JsString) (now : JsString) :
    Throwing (JsString × Option JsString × JsString) := do
  let reason ← bindText reason
  let byWhom ← byWhom.mapM bindText
  let now ← bindText now
  return (reason, byWhom, now)

/-- `INSERT … ON CONFLICT (id) DO UPDATE …`. -/
def upsertFrozen (row : Option FreezeRow) (reason : JsString) (byWhom : Option JsString)
    (now : JsString) : FreezeRow :=
  let given := nullIfEmpty (btrim reason)
  match row with
  | none => ⟨1, true, some (given.getD "frozen"), byWhom, some now⟩
  | some f => ⟨f.epoch + 1, true, some ((given.or f.reason).getD "frozen"), byWhom, some now⟩

def freezeStatement (row : Option FreezeRow) (reason : JsString) (byWhom : Option JsString)
    (now : Throwing JsString) : Throwing FreezeAnswer × Option FreezeRow :=
  match now.bind fun now => bindFreeze bindText reason byWhom now with
  | .error thrown => (.error thrown, row)
  | .ok (reason, byWhom, now) =>
    let written := upsertFrozen row reason byWhom now
    (written.toState.map .froze, some written)

/-- `UPDATE … WHERE id = 1 AND epoch = $1`, with whether it matched the row. -/
def updateStatement (row : Option FreezeRow) (expectedEpoch : Number) :
    Throwing Bool × Option FreezeRow :=
  match bigint expectedEpoch with
  | .error thrown => (.error thrown, row)
  | .ok expected =>
    match row with
    | some f =>
      if f.epoch = expected then (.ok true, some ⟨f.epoch + 1, false, none, none, none⟩)
      else (.ok false, row)
    | none => (.ok false, none)

/-- `INSERT … ON CONFLICT (id) DO NOTHING`, with whether it wrote the row. -/
def insertStatement (row : Option FreezeRow) : Bool × Option FreezeRow :=
  match row with
  | some f => (false, some f)
  | none => (true, some ⟨1, false, none, none, none⟩)

def readStatement (row : Option FreezeRow) : Throwing FreezeState :=
  match row with
  | some f => f.toState
  | none => .ok unfrozen

/-! ### Calls in parts -/

/-- The statements of the calls. An unfreeze is numbered, so that its second statement is told from
those of others. -/
inductive FreezeStep
  | freeze (reason : JsString) (byWhom : Option JsString) (now : Throwing JsString)
  | update (call : ℕ) (expectedEpoch : Number)
  | insert (call : ℕ)
  | read

/-- The row, and the unfreezes whose first statement has matched nothing and that go on. -/
structure FreezeTable where
  row : Option FreezeRow
  waiting : List ℕ

/-- A statement, with the call that it completes and its answer, if it completes one. -/
def FreezeTable.step (t : FreezeTable) :
    FreezeStep → Option (FreezeOp × Throwing FreezeAnswer) × FreezeTable
  | .freeze reason byWhom now =>
    let answered := freezeStatement bindText t.row reason byWhom now
    (some (.freeze reason byWhom now, answered.1), { t with row := answered.2 })
  | .update call expectedEpoch =>
    let updated := updateStatement t.row expectedEpoch
    match updated.1 with
    | .error thrown => (some (.unfreeze expectedEpoch, .error thrown), t)
    | .ok true => (some (.unfreeze expectedEpoch, .ok (.unfroze .ok)), { t with row := updated.2 })
    | .ok false =>
      if expectedEpoch = 0 then (none, { t with waiting := call :: t.waiting })
      else (some (.unfreeze expectedEpoch, .ok (.unfroze .staleEpoch)), t)
  | .insert call =>
    if call ∈ t.waiting then
      let inserted := insertStatement t.row
      (some (.unfreeze 0, .ok (.unfroze (if inserted.1 then .ok else .staleEpoch))),
        ⟨inserted.2, t.waiting.erase call⟩)
    else (none, t)
  | .read => (some (.read, (readStatement t.row).map .state), t)

/-- The calls that a schedule completes, each where its last statement runs, with their answers. -/
def FreezeTable.play : FreezeTable → List FreezeStep →
    List (FreezeOp × Throwing FreezeAnswer) × FreezeTable
  | t, [] => ([], t)
  | t, step :: steps =>
    let stepped := t.step bindText step
    let rest := FreezeTable.play stepped.2 steps
    (stepped.1.toList ++ rest.1, rest.2)

/-- The calls for which the table is good, asked in the state that they meet: texts that the database
carries as they are, a reason whose ends have no other white space than blanks, a fence that is a
64-bit integer. -/
def FitsTable (s : FreezeState) (op : FreezeOp) : Prop :=
  op.Fits s ∧ match op with
  | .freeze reason byWhom now => ∀ text, now = .ok text →
      bindFreeze bindText reason byWhom text = .ok (reason, byWhom, text) ∧
        trimmed reason = btrim reason
  | .unfreeze expectedEpoch => (bigint expectedEpoch).toOption.isSome = true
  | .read => True

end Table

/-! ### The row against the state in memory -/

/-- The row holds a state; a missing row is the state that was never frozen. -/
def HoldsState (row : Option FreezeRow) (s : FreezeState) (n : ℕ) : Prop :=
  row = none ∧ s = unfrozen ∧ n = 0 ∨
    0 < n ∧ row = some ⟨n, s.frozen, s.reason, s.byWhom, s.frozenAt⟩

section Refinement
variable {bindText : JsString → Throwing JsString} {row : Option FreezeRow} {s : FreezeState} {n : ℕ}
  (holds : HoldsState row s n) (counted : Counted s n)
include holds counted

theorem HoldsState.read : readStatement row = .ok s := by
  rcases holds with ⟨rfl, rfl, -⟩ | ⟨-, rfl⟩
  · rfl
  · have narrow : |(n : ℤ)| < 2 ^ 53 := by
      rw [Nat.abs_cast]
      exact_mod_cast counted.1
    rw [readStatement, FreezeRow.toState, toSafeInt_safe narrow, ok_bind, ← counted.2]
    rfl

omit counted in
theorem HoldsState.upsert {reason : JsString} (same : trimmed reason = btrim reason)
    (byWhom : Option JsString) (now : JsString) :
    upsertFrozen row reason byWhom now = ⟨n + 1, true, (nextFrozenState s reason byWhom now).reason,
      byWhom, some now⟩ := by
  have given : (nextFrozenState s reason byWhom now).reason =
      some (((nullIfEmpty (btrim reason)).or s.reason).getD "frozen") := by
    unfold nextFrozenState nullIfEmpty
    rw [same]
    by_cases blank : btrim reason = []
    · rw [if_pos blank, blank]
      rfl
    · rw [if_neg blank, if_pos (List.length_pos_iff.mpr blank)]
      rfl
  rcases holds with ⟨rfl, rfl, rfl⟩ | ⟨-, rfl⟩
  · rw [given, upsertFrozen, unfrozen, Option.or_none]
    rfl
  · rw [given, upsertFrozen]

theorem HoldsState.freeze {reason : JsString} {byWhom : Option JsString} {now : Throwing JsString}
    (fits : FitsTable bindText s (.freeze reason byWhom now)) :
    (freezeStatement bindText row reason byWhom now).1 =
        (MemoryFreezeStore.step s (.freeze reason byWhom now)).1 ∧
      ∃ n', HoldsState (freezeStatement bindText row reason byWhom now).2
          (MemoryFreezeStore.step s (.freeze reason byWhom now)).2 n' ∧
        Counted (MemoryFreezeStore.step s (.freeze reason byWhom now)).2 n' := by
  cases now with
  | error thrown => exact ⟨rfl, n, holds, counted⟩
  | ok now =>
    obtain ⟨safe, carried⟩ := fits
    obtain ⟨bound, same⟩ := carried now rfl
    obtain ⟨small, next⟩ := counted.next (safe ⟨now, rfl⟩)
    have narrow : |((n + 1 : ℕ) : ℤ)| < 2 ^ 53 := by
      rw [Nat.abs_cast]
      exact_mod_cast small
    have written : (upsertFrozen row reason byWhom now).toState =
        .ok (nextFrozenState s reason byWhom now) := by
      rw [holds.upsert same, FreezeRow.toState]
      dsimp only
      rw [show (n : ℤ) + 1 = ((n + 1 : ℕ) : ℤ) by rfl, toSafeInt_safe narrow, ok_bind, ← next]
      rfl
    unfold freezeStatement
    rw [show (Except.ok now : Throwing JsString).bind _ = bindFreeze bindText reason byWhom now from rfl,
      bound]
    dsimp only
    rw [written]
    exact ⟨rfl, n + 1, .inr ⟨n.succ_pos, congrArg some (holds.upsert same byWhom now)⟩, small, next⟩

/-- An update matches just the row of the epoch it names. -/
theorem HoldsState.update {expectedEpoch : Number}
    (fits : (bigint expectedEpoch).toOption.isSome = true) :
    (updateStatement row expectedEpoch = (.ok true, some ⟨n + 1, false, none, none, none⟩) ∧
        expectedEpoch = s.epoch ∧ 0 < n) ∨
      updateStatement row expectedEpoch = (.ok false, row) ∧ (expectedEpoch = s.epoch → n = 0) := by
  obtain ⟨expected, bound⟩ := Option.isSome_iff_exists.mp fits
  have bound : bigint expectedEpoch = .ok expected := by
    cases read : bigint expectedEpoch with
    | error thrown =>
      rw [read] at bound
      cases bound
    | ok p =>
      rw [read] at bound
      exact congrArg Except.ok (Option.some.inj bound)
  have narrow : |(n : ℤ)| < 2 ^ 53 := by
    rw [Nat.abs_cast]
    exact_mod_cast counted.1
  have names : (n : ℤ) = expected ↔ expectedEpoch = s.epoch := by
    constructor
    · rintro rfl
      rw [counted.2]
      exact (bigint_ok bound).1.symm
    · rintro rfl
      rw [counted.2, bigint_safe narrow] at bound
      exact Except.ok.inj bound
  unfold updateStatement
  rw [bound]
  dsimp only
  rcases holds with ⟨rfl, rfl, rfl⟩ | ⟨positive, rfl⟩
  · exact .inr ⟨rfl, fun _ => rfl⟩
  · dsimp only
    split_ifs with same
    · exact .inl ⟨rfl, names.mp same, positive⟩
    · exact .inr ⟨rfl, fun named => absurd (names.mpr named) same⟩

omit counted in
theorem HoldsState.insert :
    (insertStatement row = (true, some ⟨1, false, none, none, none⟩) ∧ s = unfrozen ∧ n = 0) ∨
      insertStatement row = (false, row) ∧ 0 < n := by
  rcases holds with ⟨rfl, rfl, rfl⟩ | ⟨positive, rfl⟩
  · exact .inl ⟨rfl, rfl, rfl⟩
  · exact .inr ⟨rfl, positive⟩

end Refinement

/-- A call that is completed is answered as in memory and leaves the state that it leaves there. -/
def CompletedAlike (bindText : JsString → Throwing JsString) (s : FreezeState) (row : Option FreezeRow) :
    FreezeOp × Throwing FreezeAnswer → Prop
  | (op, answer) => FitsTable bindText s op → answer = (MemoryFreezeStore.step s op).1 ∧
      ∃ n, HoldsState row (MemoryFreezeStore.step s op).2 n ∧ Counted (MemoryFreezeStore.step s op).2 n

section Statements
variable {bindText : JsString → Throwing JsString} {s : FreezeState} {n : ℕ} {row : Option FreezeRow}

theorem completed_refused (holds : HoldsState row s n) (counted : Counted s n) {expectedEpoch : Number}
    (other : expectedEpoch ≠ s.epoch) :
    CompletedAlike bindText s row (.unfreeze expectedEpoch, .ok (.unfroze .staleEpoch)) := by
  intro _
  rw [MemoryFreezeStore.step, if_pos other]
  exact ⟨rfl, n, holds, counted⟩

theorem completed_lifted (counted : Counted s n) {expectedEpoch : Number}
    (named : expectedEpoch = s.epoch) :
    CompletedAlike bindText s (some ⟨n + 1, false, none, none, none⟩)
      (.unfreeze expectedEpoch, .ok (.unfroze .ok)) := by
  intro fits
  rw [MemoryFreezeStore.step, if_neg (not_not.mpr named)]
  exact ⟨rfl, n + 1, .inr ⟨n.succ_pos, rfl⟩, counted.next (fits.1 named)⟩

theorem natCast_eq_zero (counted : Counted s n) : s.epoch = 0 ↔ n = 0 := by
  rw [counted.2]
  exact Number.natCast_inj counted.1 (by norm_num : 0 < 2 ^ 53)

/-- One statement completes a call alike, or completes none and leaves the row as it is. -/
theorem HoldsState.step {t : FreezeTable} (holds : HoldsState t.row s n) (counted : Counted s n)
    (step : FreezeStep) :
    ((t.step bindText step).1 = none ∧ (t.step bindText step).2.row = t.row) ∨
      ∃ completed, (t.step bindText step).1 = some completed ∧
        CompletedAlike bindText s (t.step bindText step).2.row completed := by
  cases step with
  | freeze reason byWhom now => exact .inr ⟨_, rfl, fun fits => holds.freeze counted fits⟩
  | read =>
    refine .inr ⟨_, rfl, fun _ => ⟨?_, n, holds, counted⟩⟩
    rw [holds.read counted]
    rfl
  | insert call =>
    unfold FreezeTable.step
    by_cases waits : call ∈ t.waiting
    · right
      dsimp only
      rw [if_pos waits]
      rcases holds.insert with ⟨inserted, rfl, rfl⟩ | ⟨kept, positive⟩
      · rw [inserted]
        exact ⟨_, rfl, completed_lifted counted rfl⟩
      · rw [kept]
        refine ⟨_, rfl, completed_refused holds counted fun named => ?_⟩
        exact absurd ((natCast_eq_zero counted).mp named.symm) (Nat.ne_of_gt positive)
    · left
      dsimp only
      rw [if_neg waits]
      exact ⟨rfl, rfl⟩
  | update call expectedEpoch =>
    unfold FreezeTable.step
    dsimp only
    cases bound : bigint expectedEpoch with
    | error thrown =>
      have refused : updateStatement t.row expectedEpoch = (.error thrown, t.row) := by
        rw [updateStatement, bound]
      rw [refused]
      refine .inr ⟨_, rfl, fun fits => ?_⟩
      have taken := fits.2
      dsimp only at taken
      rw [bound] at taken
      cases taken
    | ok expected =>
      have fits : (bigint expectedEpoch).toOption.isSome = true := by
        rw [bound]
        rfl
      rcases holds.update counted fits with ⟨matched, named, -⟩ | ⟨missed, only⟩
      · rw [matched]
        exact .inr ⟨_, rfl, completed_lifted counted named⟩
      · rw [missed]
        dsimp only
        split_ifs with zero
        · exact .inl ⟨rfl, rfl⟩
        · refine .inr ⟨_, rfl, completed_refused holds counted fun named => zero ?_⟩
          rw [named, natCast_eq_zero counted]
          exact only named

end Statements

/-- A schedule that completes calls answers them as memory does in the order in which they complete. -/
theorem FreezeTable.play_alike {bindText : JsString → Throwing JsString} {t : FreezeTable}
    {s : FreezeState} {n : ℕ} (holds : HoldsState t.row s n) (counted : Counted s n)
    {steps : List FreezeStep}
    (fits : Machine.Permitted MemoryFreezeStore.step (FitsTable bindText) s
      ((t.play bindText steps).1.map Prod.fst)) :
    (t.play bindText steps).1.map Prod.snd =
        (Machine.play MemoryFreezeStore.step s ((t.play bindText steps).1.map Prod.fst)).1 ∧
      readStatement (t.play bindText steps).2.row =
        .ok (Machine.play MemoryFreezeStore.step s ((t.play bindText steps).1.map Prod.fst)).2 := by
  induction steps generalizing t s n with
  | nil => exact ⟨rfl, holds.read counted⟩
  | cons step steps ih =>
    unfold FreezeTable.play at fits ⊢
    dsimp only at fits ⊢
    rcases holds.step counted step with ⟨silent, kept⟩ | ⟨⟨op, answer⟩, completed, alike⟩
    · rw [silent] at fits ⊢
      exact ih (kept.symm ▸ holds) counted fits
    · rw [completed] at fits ⊢
      obtain ⟨first, rest⟩ := fits
      obtain ⟨same, n', held, counted'⟩ := alike first
      obtain ⟨answers, state⟩ := ih held counted' rest
      exact ⟨congrArg₂ List.cons same answers, state⟩

/-! ### The three stores -/

section Stores
variable (filePath : JsString) (bindText : JsString → Throwing JsString)

def freezesInMemory : List FreezeOp → List (Throwing FreezeAnswer) × FreezeState :=
  Machine.play MemoryFreezeStore.step unfrozen

def freezesInFile : List FreezeOp → List (Throwing FreezeAnswer) × FileFreezeStore :=
  Machine.play (FileFreezeStore.step filePath) none

/-- The calls in the order in which their last statements run, with their answers. -/
def freezesInTable : List FreezeStep → List (FreezeOp × Throwing FreezeAnswer) × FreezeTable :=
  FreezeTable.play bindText ⟨none, []⟩

/-- The file holds the state of so many operations. -/
def FileHeld (s : FreezeState) (file : FileFreezeStore) : Prop :=
  ∃ n, FileFreezeStore.Holds file s ∧ Counted s n

theorem FileHeld.step {s : FreezeState} {file : FileFreezeStore} {op : FreezeOp}
    (held : FileHeld s file) (fits : op.Fits s) :
    (MemoryFreezeStore.step s op).1 = (FileFreezeStore.step filePath file op).1 ∧
      FileHeld (MemoryFreezeStore.step s op).2 (FileFreezeStore.step filePath file op).2 := by
  obtain ⟨n, holds, counted⟩ := held
  obtain ⟨same, next⟩ := @FileFreezeStore.Holds.step filePath file s n holds counted op
  rcases MemoryFreezeStore.step_cases counted fits with ⟨-, moved⟩ | ⟨-, kept⟩
  · exact ⟨same, n + 1, next, moved⟩
  · exact ⟨same, n, next, kept.symm ▸ counted⟩

theorem file_freezes_alike (ops : List FreezeOp)
    (fits : Machine.Permitted MemoryFreezeStore.step (fun s op => op.Fits s) unfrozen ops) :
    (freezesInFile filePath ops).1 = (freezesInMemory ops).1 ∧
      (freezesInFile filePath ops).2.load filePath = .ok (freezesInMemory ops).2 := by
  have start : FileHeld unfrozen none := ⟨0, .inl ⟨rfl, rfl⟩, counted_unfrozen⟩
  obtain ⟨answers, n, holds, counted⟩ := Machine.play_alike
    (fun _ _ op held fits => @FileHeld.step filePath _ _ op held fits) start fits
  exact ⟨(List.forall₂_eq_eq_eq ▸ answers : _ = _).symm, holds.load counted⟩

/-- Over any interleaving of calls, for which the epochs stay safe integers and the texts are carried,
each store compares and sets, and the three answer alike. -/
theorem freeze_stores_compare_and_set :
    (∀ ops : List FreezeOp,
      Machine.Permitted MemoryFreezeStore.step (fun s op => op.Fits s) unfrozen ops →
        ComparesAndSets MemoryFreezeStore.step (freezesInMemory ops).2 ∧
        (freezesInFile filePath ops).1 = (freezesInMemory ops).1 ∧
        (freezesInFile filePath ops).2.load filePath = .ok (freezesInMemory ops).2) ∧
    ∀ steps : List FreezeStep, ∀ ops, ops = (freezesInTable bindText steps).1.map Prod.fst →
      Machine.Permitted MemoryFreezeStore.step (FitsTable bindText) unfrozen ops →
        ComparesAndSets MemoryFreezeStore.step (freezesInMemory ops).2 ∧
        (freezesInTable bindText steps).1.map Prod.snd = (freezesInMemory ops).1 ∧
        readStatement (freezesInTable bindText steps).2.row = .ok (freezesInMemory ops).2 := by
  constructor
  · intro ops fits
    obtain ⟨counted, -⟩ := MemoryFreezeStore.play_counted counted_unfrozen fits
    exact ⟨MemoryFreezeStore.comparesAndSets counted, file_freezes_alike filePath ops fits⟩
  · rintro steps _ rfl fits
    have within : Machine.Permitted MemoryFreezeStore.step (fun s op => op.Fits s) unfrozen
        ((freezesInTable bindText steps).1.map Prod.fst) := fits.mono fun _ _ both => both.1
    obtain ⟨counted, -⟩ := MemoryFreezeStore.play_counted counted_unfrozen within
    have start : HoldsState (FreezeTable.mk none []).row unfrozen 0 := .inl ⟨rfl, rfl, rfl⟩
    exact ⟨MemoryFreezeStore.comparesAndSets counted,
      FreezeTable.play_alike start counted_unfrozen fits⟩

end Stores

namespace FreezeSample

def now : Throwing JsString := .ok "2026-05-28T20:26:40.000Z"

def leaked : JsString := "credentials leaked"

/-- An operator lifts a switch that was never thrown while others throw it. -/
def steps : List FreezeStep :=
  [.update 1 0, .freeze leaked (some "prem") now, .insert 1, .freeze "  " none now, .read]

def ops : List FreezeOp :=
  [.freeze leaked (some "prem") now, .unfreeze 0, .freeze "  " none now, .read]

/-- A freeze and a sloppy one, whose reason is a tab. -/
def sloppy : List FreezeStep := [.freeze leaked (some "prem") now, .freeze [9] none now]

def sloppyOps : List FreezeOp := [.freeze leaked (some "prem") now, .freeze [9] none now]

theorem checked :
    (∀ i ∈ List.range 4, ((freezesInMemory (ops.take i)).2.epoch + 1).isSafeInteger = true) ∧
    (trimmed leaked = btrim leaked ∧ trimmed "  " = btrim "  ") := by
  decide +kernel

theorem bigint_zero : bigint 0 = .ok 0 := @bigint_safe 0 (by norm_num)

theorem frozen_fits {s : FreezeState} {reason : JsString} {byWhom : Option JsString}
    (safe : (s.epoch + 1).isSafeInteger = true) (same : trimmed reason = btrim reason) :
    FitsTable .ok s (.freeze reason byWhom now) := by
  refine ⟨fun _ => safe, fun text _ => ⟨?_, same⟩⟩
  cases byWhom with
  | none => rfl
  | some name => rfl

theorem fits : Machine.Permitted MemoryFreezeStore.step (FitsTable .ok) unfrozen ops := by
  obtain ⟨safe, leaked, blank⟩ := checked
  have safe : ∀ i, i < 4 → ((freezesInMemory (ops.take i)).2.epoch + 1).isSafeInteger = true :=
    fun i small => safe i (List.mem_range.mpr small)
  have carried : (bigint 0).toOption.isSome = true := by
    rw [bigint_zero]
    rfl
  exact ⟨frozen_fits (safe 0 (by decide)) leaked, ⟨fun _ => safe 1 (by decide), carried⟩,
    frozen_fits (safe 2 (by decide)) blank, ⟨False.elim, trivial⟩, trivial⟩

theorem completed : ops = (freezesInTable .ok steps).1.map Prod.fst := by
  have waits : FreezeTable.step .ok ⟨none, []⟩ (.update 1 0) = (none, ⟨none, [1]⟩) := by
    unfold FreezeTable.step updateStatement
    dsimp only
    rw [bigint_zero]
    dsimp only
    rw [if_pos rfl]
  unfold freezesInTable steps FreezeTable.play
  rw [waits]
  rfl

end FreezeSample

theorem racing_unfreeze_fenced :
    (freezesInTable .ok FreezeSample.steps).1.map Prod.snd = (freezesInMemory FreezeSample.ops).1 ∧
      (freezesInFile "freeze.json" FreezeSample.ops).1 = (freezesInMemory FreezeSample.ops).1 := by
  obtain ⟨inFile, inTable⟩ := freeze_stores_compare_and_set "freeze.json" .ok
  have within : Machine.Permitted MemoryFreezeStore.step (fun s op => op.Fits s) unfrozen
      FreezeSample.ops := FreezeSample.fits.mono fun _ _ both => both.1
  exact ⟨(inTable FreezeSample.steps FreezeSample.ops FreezeSample.completed FreezeSample.fits).2.1,
    (inFile FreezeSample.ops within).2.1⟩

/-- A reason of white space other than blanks takes the place of the live one in the table. -/
theorem tab_replaces_reason :
    trimmed [9] = [] ∧
      ((readStatement (freezesInTable .ok FreezeSample.sloppy).2.row).map FreezeState.reason).toOption =
        some (some [9]) ∧
      (freezesInMemory FreezeSample.sloppyOps).2.reason = some FreezeSample.leaked := by
  decide +kernel

end Vaduno.Postgres
