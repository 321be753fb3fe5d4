import Vaduno.Ecma.JsonFile
import Vaduno.Machine
import Vaduno.Mandate.Pq

/-! The shared kill switch: one state under an epoch that every applied operation moves on, and an
unfreeze that is a compare-and-set on it. In memory, and in a file that processes write under a lock. -/
namespace Vaduno.Revocation
open Ecma

structure FreezeState where
  epoch : Number
  frozen : Bool
  reason : Option JsString
  byWhom : Option JsString
  frozenAt : Option JsString
  deriving DecidableEq

inductive UnfreezeResult
  | ok
  /-- Somebody froze again since. -/
  | staleEpoch
  deriving DecidableEq

inductive FreezeOp
  /-- `now` is what the clock gives as a text. -/
  | freeze (reason : JsString) (byWhom : Option JsString) (now : Throwing JsString)
  | unfreeze (expectedEpoch : Number)
  | read

inductive FreezeAnswer
  | froze (state : FreezeState)
  | unfroze (result : UnfreezeResult)
  | state (state : FreezeState)
  deriving DecidableEq

def unfrozen : FreezeState := ⟨0, false, none, none, none⟩

/-- `String.prototype.trim`. -/
def trimmed (s : JsString) : JsString :=
  ((s.dropWhile Mandate.isSpaceUnit).reverse.dropWhile Mandate.isSpaceUnit).reverse

/-- A blank reason keeps the live one. -/
def nextFrozenState (prev : FreezeState) (reason : JsString) (byWhom : Option JsString) (now : JsString) :
    FreezeState where
  epoch := prev.epoch + 1
  frozen := true
  reason := if 0 < (trimmed reason).length then trimmed reason else prev.reason.getD "frozen"
  byWhom := byWhom
  frozenAt := now

/-- What an applied unfreeze leaves. -/
def lifted (prev : FreezeState) : FreezeState := ⟨prev.epoch + 1, false, none, none, none⟩

/-! ### In memory -/

/-- Each call is one synchronous body. -/
def MemoryFreezeStore.step (s : FreezeState) : FreezeOp → Throwing FreezeAnswer × FreezeState
  | .freeze reason byWhom now =>
    match now with
    | .error thrown => (.error thrown, s)
    | .ok now =>
      let next := nextFrozenState s reason byWhom now
      (.ok (.froze next), next)
  | .unfreeze expectedEpoch =>
    if expectedEpoch ≠ s.epoch then (.ok (.unfroze .staleEpoch), s)
    else (.ok (.unfroze .ok), lifted s)
  | .read => (.ok (.state s), s)

/-! ### In a file -/

def textOrNull (text : Option JsString) : JsonValue := text.elim .null .string

def stateProps (s : FreezeState) : Entries := [
  ("epoch", .number s.epoch),
  ("frozen", .boolean s.frozen),
  ("reason", textOrNull s.reason),
  ("by", textOrNull s.byWhom),
  ("at", textOrNull s.frozenAt)]

/-- What the file holds; `none` where there is none. -/
abbrev FileFreezeStore := Option JsString

namespace FileFreezeStore
variable (filePath : JsString) (file : FileFreezeStore)

def corrupt : Thrown :=
  .error ("FileFreezeStore: " ++ filePath ++ " is corrupt — freeze state is UNKNOWN (fail closed)")

def invalidShape : Thrown :=
  .error ("FileFreezeStore: " ++ filePath ++
    " has an invalid shape — freeze state is UNKNOWN (fail closed)")

/-- Only a file that is not there reads as never frozen. -/
def load : Throwing FreezeState :=
  match file with
  | none => .ok unfrozen
  | some raw =>
    match JsonValue.parse raw with
    | none => .error (corrupt filePath)
    | some s =>
      match s.get "epoch", s.get "frozen" with
      | some (.number epoch), some (.boolean frozen) =>
        if !epoch.isSafeInteger || epoch < 0 then .error (invalidShape filePath)
        else .ok {
          epoch := epoch
          frozen := frozen
          reason := JsonValue.optionalText (s.get "reason")
          byWhom := JsonValue.optionalText (s.get "by")
          frozenAt := JsonValue.optionalText (s.get "at") }
      | _, _ => .error (invalidShape filePath)

def save (s : FreezeState) : FileFreezeStore :=
  some (JsonValue.indented [32, 32] [] (.object (stateProps s)))

/-- Each writing call holds the lock from its load to its save. -/
def step : FreezeOp → Throwing FreezeAnswer × FileFreezeStore
  | .freeze reason byWhom now =>
    match file.load filePath with
    | .error thrown => (.error thrown, file)
    | .ok current =>
      match now with
      | .error thrown => (.error thrown, file)
      | .ok now =>
        let next := nextFrozenState current reason byWhom now
        (.ok (.froze next), save next)
  | .unfreeze expectedEpoch =>
    match file.load filePath with
    | .error thrown => (.error thrown, file)
    | .ok current =>
      if expectedEpoch ≠ current.epoch then (.ok (.unfroze .staleEpoch), file)
      else (.ok (.unfroze .ok), save (lifted current))
  | .read => ((file.load filePath).map .state, file)

end FileFreezeStore

/-! ### Epochs -/

/-- An operation that takes effect. -/
def FreezeOp.Applies (s : FreezeState) : FreezeOp → Prop
  | .freeze _ _ now => ∃ text, now = .ok text
  | .unfreeze expectedEpoch => expectedEpoch = s.epoch
  | .read => False

/-- The next epoch is still one of the safe integers. -/
def FreezeOp.Fits (s : FreezeState) (op : FreezeOp) : Prop :=
  op.Applies s → (s.epoch + 1).isSafeInteger = true

/-- An epoch counts operations. -/
def Counted (s : FreezeState) (n : ℕ) : Prop := n < 2 ^ 53 ∧ s.epoch = (n : ℤ)

theorem counted_unfrozen : Counted unfrozen 0 := ⟨by norm_num, rfl⟩

theorem Counted.next {s : FreezeState} {n : ℕ} (counted : Counted s n)
    (fits : (s.epoch + 1).isSafeInteger = true) : n + 1 < 2 ^ 53 ∧ s.epoch + 1 = ((n + 1 : ℕ) : ℤ) := by
  have one : (1 : Number) = ((1 : ℕ) : ℤ) := rfl
  have sum : s.epoch + 1 = ((n + 1 : ℕ) : ℤ) := by
    rw [counted.2, one, Number.add_intCast (Number.natCast_narrow counted.1)
      (Number.natCast_narrow (by norm_num))]
    rfl
  refine ⟨?_, sum⟩
  rw [sum] at fits
  have bound := counted.1
  by_contra beyond
  have top : n + 1 = 2 ^ 53 := by omega
  rw [top] at fits
  revert fits
  decide +kernel

/-- Each operation either takes effect and counts one, or leaves the state and says so. -/
theorem MemoryFreezeStore.step_cases {s : FreezeState} {n : ℕ} (counted : Counted s n) {op : FreezeOp}
    (fits : op.Fits s) :
    (op.Applies s ∧ Counted (step s op).2 (n + 1)) ∨ (¬op.Applies s ∧ (step s op).2 = s) := by
  cases op with
  | freeze reason byWhom now =>
    cases now with
    | error thrown =>
      refine .inr ⟨fun applies => ?_, rfl⟩
      obtain ⟨_, none⟩ := applies
      cases none
    | ok now => exact .inl ⟨⟨now, rfl⟩, counted.next (fits ⟨now, rfl⟩)⟩
  | unfreeze expectedEpoch =>
    by_cases same : expectedEpoch = s.epoch
    · have applied : (step s (.unfreeze expectedEpoch)).2 = lifted s := by
        rw [step, if_neg (not_not.mpr same)]
      rw [applied]
      exact .inl ⟨same, counted.next (fits same)⟩
    · have refused : (step s (.unfreeze expectedEpoch)).2 = s := by rw [step, if_pos same]
      exact .inr ⟨same, refused⟩
  | read => exact .inr ⟨id, rfl⟩

/-! ### Compare and set -/

/-- An answer of an operation that took effect. -/
def FreezeAnswer.applied : Throwing FreezeAnswer → Bool
  | .ok (.froze _) | .ok (.unfroze .ok) => true
  | _ => false

theorem applied_iff (s : FreezeState) (op : FreezeOp) :
    FreezeAnswer.applied (MemoryFreezeStore.step s op).1 = true ↔ op.Applies s := by
  cases op with
  | freeze reason byWhom now =>
    cases now with
    | error thrown =>
      constructor
      · intro applied
        cases applied
      · rintro ⟨_, none⟩
        cases none
    | ok now => exact ⟨fun _ => ⟨now, rfl⟩, fun _ => rfl⟩
  | unfreeze expectedEpoch =>
    rw [MemoryFreezeStore.step, FreezeOp.Applies]
    split_ifs with moved
    · refine ⟨fun applied => ?_, fun same => absurd same moved⟩
      cases applied
    · exact ⟨fun _ => not_not.mp moved, fun _ => rfl⟩
  | read =>
    refine ⟨fun applied => ?_, False.elim⟩
    cases applied

/-- The operations of a run that took effect. -/
def appliedCount (answers : List (Throwing FreezeAnswer)) : ℕ :=
  answers.countP FreezeAnswer.applied

/-- Over a run, the epoch counts the operations that took effect, and where there were none nothing
has changed. -/
theorem MemoryFreezeStore.play_counted {s : FreezeState} {n : ℕ} (counted : Counted s n)
    {ops : List FreezeOp} (fits : Machine.Permitted step (fun s op => op.Fits s) s ops) :
    Counted (Machine.play step s ops).2 (n + appliedCount (Machine.play step s ops).1) ∧
      (appliedCount (Machine.play step s ops).1 = 0 → (Machine.play step s ops).2 = s) := by
  induction ops generalizing s n with
  | nil => exact ⟨counted, fun _ => rfl⟩
  | cons op ops ih =>
    have answer : appliedCount (Machine.play step s (op :: ops)).1 =
        appliedCount (Machine.play step (step s op).2 ops).1 +
          if FreezeAnswer.applied (step s op).1 = true then 1 else 0 := List.countP_cons
    change Counted (Machine.play step (step s op).2 ops).2 _ ∧
      (_ → (Machine.play step (step s op).2 ops).2 = s)
    rw [answer]
    rcases step_cases counted fits.1 with ⟨applies, next⟩ | ⟨idle, same⟩
    · rw [if_pos ((applied_iff s op).mpr applies)]
      obtain ⟨later, -⟩ := ih next fits.2
      rw [Nat.add_right_comm] at later
      exact ⟨later, fun none => absurd none (Nat.succ_ne_zero _)⟩
    · rw [if_neg fun applied => idle ((applied_iff s op).mp applied)]
      have kept : Counted (step s op).2 n := same.symm ▸ counted
      obtain ⟨later, unchanged⟩ := ih kept fits.2
      exact ⟨later, fun none => (unchanged none).trans same⟩

/-- What a switch promises from a state on. -/
structure ComparesAndSets (step : FreezeState → FreezeOp → Throwing FreezeAnswer × FreezeState)
    (s : FreezeState) : Prop where
  /-- One operation moves the epoch by one, or is refused and changes nothing. -/
  moves : ∀ op : FreezeOp, op.Fits s → if FreezeAnswer.applied (step s op).1 = true
    then (step s op).2.epoch = s.epoch + 1 ∧ (step s op).2.epoch ≠ s.epoch
    else (step s op).2 = s
  /-- An unfreeze takes effect just when nothing has since the epoch was read that it names. -/
  fenced : ∀ later, Machine.Permitted step (fun s op => op.Fits s) s later →
    (FreezeAnswer.applied (step (Machine.play step s later).2 (.unfreeze s.epoch)).1 = true ↔
      appliedCount (Machine.play step s later).1 = 0)
  /-- A blank reason keeps a live one. -/
  keepsReason : ∀ reason byWhom now live, trimmed reason = [] → s.reason = some live →
    (step s (.freeze reason byWhom now)).2.reason = some live

theorem epoch_natCast_ne {s : FreezeState} {n : ℕ} (counted : Counted s n) (small : n + 1 < 2 ^ 53) :
    (((n + 1 : ℕ) : ℤ) : Number) ≠ s.epoch := by
  rw [counted.2]
  intro same
  have equal := (Number.natCast_inj small counted.1).mp same
  omega

theorem MemoryFreezeStore.comparesAndSets {s : FreezeState} {n : ℕ} (counted : Counted s n) :
    ComparesAndSets step s := by
  constructor
  · intro op fits
    rcases step_cases counted fits with ⟨applies, next⟩ | ⟨idle, same⟩
    · rw [if_pos ((applied_iff s op).mpr applies), next.2]
      have moved := counted.next (fits applies)
      exact ⟨moved.2.symm, epoch_natCast_ne counted moved.1⟩
    · rw [if_neg fun applied => idle ((applied_iff s op).mp applied)]
      exact same
  · intro later permitted
    obtain ⟨reached, -⟩ := play_counted counted permitted
    rw [applied_iff, FreezeOp.Applies, counted.2, reached.2, Number.natCast_inj counted.1 reached.1]
    omega
  · intro reason byWhom now live blank found
    cases now with
    | error thrown => exact found
    | ok now =>
      have kept : (nextFrozenState s reason byWhom now).reason = some (s.reason.getD "frozen") := by
        unfold nextFrozenState
        rw [blank]
        rfl
      change (nextFrozenState s reason byWhom now).reason = some live
      rw [kept, found]
      rfl

/-! ### The file against the state in memory -/

/-- The file holds a state. -/
def FileFreezeStore.Holds (file : FileFreezeStore) (s : FreezeState) : Prop :=
  file = none ∧ s = unfrozen ∨ file = save s

theorem faithful_textOrNull (text : Option JsString) : (textOrNull text).Faithful := by
  cases text with
  | none => exact .null
  | some s => exact .string s

theorem faithful_state {s : FreezeState} {n : ℕ} (counted : Counted s n) :
    (JsonValue.object (stateProps s)).Faithful := by
  have number : (JsonValue.number s.epoch).Faithful := by
    rw [counted.2, Number.intCast_def (Number.natCast_narrow counted.1)]
    exact .number _
  refine .object (.cons number (.cons (.boolean _) (.cons (faithful_textOrNull _)
    (.cons (faithful_textOrNull _) (.cons (faithful_textOrNull _) .nil))))) ?_
  exact (by decide : [encode "epoch", encode "frozen", encode "reason", encode "by", encode "at"].Nodup)

theorem optionalText_textOrNull (text : Option JsString) :
    JsonValue.optionalText (some (textOrNull text)) = text := by
  cases text with
  | none => rfl
  | some s => rfl

namespace FileFreezeStore
variable {filePath : JsString} {file : FileFreezeStore} {s : FreezeState} {n : ℕ}

theorem Holds.load (holds : file.Holds s) (counted : Counted s n) : file.load filePath = .ok s := by
  rcases holds with ⟨rfl, rfl⟩ | rfl
  · rfl
  have gap : JsonValue.Spaces [32, 32] := by
    rintro u (_ | ⟨_, _ | ⟨_, none⟩⟩)
    · rfl
    · rfl
    · cases none
  unfold FileFreezeStore.load save
  dsimp only
  rw [JsonValue.parse_indented gap (faithful_state counted)]
  have shape : (!s.epoch.isSafeInteger || decide (s.epoch < 0)) = false := by
    have nonneg : ¬((n : ℤ) : Number) < ((0 : ℕ) : ℤ) := by
      rw [Number.natCast_lt counted.1 (by norm_num)]
      exact Nat.not_lt_zero n
    rw [counted.2, Number.isSafeInteger_natCast counted.1]
    exact decide_eq_false nonneg
  change (if (!s.epoch.isSafeInteger || decide (s.epoch < 0)) = true then Except.error _ else Except.ok {
    epoch := s.epoch
    frozen := s.frozen
    reason := JsonValue.optionalText (some (textOrNull s.reason))
    byWhom := JsonValue.optionalText (some (textOrNull s.byWhom))
    frozenAt := JsonValue.optionalText (some (textOrNull s.frozenAt)) : FreezeState }) = .ok s
  rw [shape, optionalText_textOrNull, optionalText_textOrNull, optionalText_textOrNull]
  rfl

/-- A call is answered over the file as in memory, and leaves the state that it leaves there. -/
theorem Holds.step (holds : file.Holds s) (counted : Counted s n) (op : FreezeOp) :
    (MemoryFreezeStore.step s op).1 = (file.step filePath op).1 ∧
      (file.step filePath op).2.Holds (MemoryFreezeStore.step s op).2 := by
  have loaded : file.load filePath = .ok s := holds.load counted
  cases op with
  | freeze reason byWhom now =>
    unfold FileFreezeStore.step
    rw [loaded]
    cases now with
    | error thrown => exact ⟨rfl, holds⟩
    | ok now => exact ⟨rfl, .inr rfl⟩
  | unfreeze expectedEpoch =>
    unfold FileFreezeStore.step MemoryFreezeStore.step
    rw [loaded]
    dsimp only
    split_ifs with moved
    · exact ⟨rfl, holds⟩
    · exact ⟨rfl, .inr rfl⟩
  | read =>
    unfold FileFreezeStore.step
    rw [loaded]
    exact ⟨rfl, holds⟩

end FileFreezeStore
end Vaduno.Revocation
