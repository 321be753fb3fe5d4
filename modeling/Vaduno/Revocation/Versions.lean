import Vaduno.Revocation.Listing
import Vaduno.Revocation.Hydrate

/-! Versions of published lists. A publish reserves its version before its first wait, above every
version that is published or reserved, and only a publish that has signed leaves the version taken. -/
namespace Vaduno.Revocation
open Ecma Ledger Enforce Async

section Floors
variable {a b x : Number} {versions : List Number}

theorem isNaN_maxOf (left : a.isNaN = false) (right : b.isNaN = false) : (maxOf a b).isNaN = false := by
  unfold maxOf
  rw [left, right, if_neg (by decide)]
  split
  · exact right
  · exact left

theorem le_maxOf (left : a.isNaN = false) (right : b.isNaN = false) : a ≤ maxOf a b ∧ b ≤ maxOf a b := by
  unfold maxOf
  rw [left, right, if_neg (by decide)]
  split
  · rename_i below
    exact ⟨Number.le_of_lt below, Number.le_refl right⟩
  · rename_i above
    exact ⟨Number.le_refl left, Number.le_of_not_lt left right above⟩

/-- A floor is not below what it is the floor of. -/
theorem foldl_maxOf (base : a.isNaN = false) (numbers : ∀ v ∈ versions, v.isNaN = false) :
    (versions.foldl maxOf a).isNaN = false ∧ a ≤ versions.foldl maxOf a ∧
      ∀ v ∈ versions, v ≤ versions.foldl maxOf a := by
  induction versions generalizing a with
  | nil => exact ⟨base, Number.le_refl base, fun v member => (List.not_mem_nil member).elim⟩
  | cons first rest ih =>
    have own := numbers first List.mem_cons_self
    have bounds := le_maxOf base own
    obtain ⟨number, above, each⟩ := ih (isNaN_maxOf base own)
      fun v member => numbers v (List.mem_cons_of_mem _ member)
    refine ⟨number, Number.le_trans bounds.1 above, fun v member => ?_⟩
    rcases List.mem_cons.mp member with rfl | member
    · exact Number.le_trans bounds.2 above
    · exact each v member

end Floors

/-! ### What calls do to versions -/

/-- A publish has no version, has reserved one, or has had its list signed under it. -/
inductive Stamping
  | none
  | reserved (version : Number)
  | noted (version : Number)

namespace Stamping

def Holds (version : Number) : Stamping → Prop
  | none => False
  | reserved held | noted held => held = version

def Allows (name : ℕ) : Stamping → RegistryOp → Prop
  | none, .reserveVersion registry _ => registry = name
  | reserved version, .notePublished registry asked | reserved version, .releaseVersion registry asked
  | noted version, .releaseVersion registry asked => registry = name ∧ asked = version
  | _, .reserveVersion .. | _, .notePublished .. | _, .releaseVersion .. => False
  | _, _ => True

def next : Stamping → (op : RegistryOp) → op.Answer → Stamping
  | none, .reserveVersion _ version, answer => if answer.isNone then reserved version else none
  | reserved version, .notePublished .., _ => noted version
  | reserved _, .releaseVersion .., _ => none
  | φ, _, _ => φ

end Stamping

def stamping (name : ℕ) : Monitor RegistryOp.Answer Stamping where
  allowed φ op := φ.Allows name op
  step φ op ans φ' := φ' = φ.next op ans

/-- Operations that have nothing to do with versions. -/
def Plain : RegistryOp → Prop
  | .reserveVersion .. | .notePublished .. | .releaseVersion .. => False
  | _ => True

section Programs
variable {registry : RevocationRegistry} {name : ℕ} {φ : Stamping} {mandateId agentId : JsString}
  {link : Option JsString} {opts : RevokeOptions} {version : Number} {purpose : StatusPurpose}

theorem quiet_plain {op : RegistryOp} (plain : Plain op) : (stamping name).Quiet φ op := by
  cases op with
  | reserveVersion _ _ | notePublished _ _ | releaseVersion _ _ => exact plain.elim
  | _ => cases φ <;> exact ⟨trivial, fun _ _ moved => moved⟩

theorem Signs.plain {op : RegistryOp} (signs : Signs op) : Plain op := by
  cases op <;> trivial

theorem Looks.plain {op : RegistryOp} (looks : Looks op) : Plain op := by
  cases op <;> trivial

theorem run_plain {p : RegistryProgram α} (plain : p.Asks Plain fun _ => True) :
    (registry.run p).Asks Plain fun _ => True :=
  (meets_bracket _ _ _ _).mpr ⟨trivial, fun _ _ _ => plain.mono fun _ _ _ =>
    ⟨trivial, fun _ _ _ => trivial⟩⟩

theorem killLocally_plain : (registry.killLocally mandateId link opts).Asks Plain fun _ => True := by
  refine Asks.bind (Asks.orThrow (Asks.perform trivial)) fun existing => ?_
  beta_reduce
  split
  · trivial
  · refine Asks.bind ?_ fun link => ?_
    · cases link with
      | none => exact Asks.orThrow (Asks.perform trivial)
      | some agentId => trivial
    · refine Asks.bind ?_ fun index => ?_
      · refine Asks.bind (Asks.orThrow (Asks.perform trivial)) fun found => ?_
        cases found with
        | none => exact Asks.orThrow (Asks.perform trivial)
        | some index => trivial
      · refine Asks.bind (Asks.orThrow (Asks.perform trivial)) fun revokedAt => ?_
        refine Asks.bind (Asks.orThrow (Asks.perform trivial)) fun _ => ?_
        exact Asks.bind (audit_asks trivial) fun _ => trivial

theorem killAll_plain (mandateIds : List JsString) (out : List RevocationResult)
    (failures : List (JsString × JsString)) :
    (registry.killAll agentId opts mandateIds out failures).Asks Plain fun _ => True := by
  induction mandateIds generalizing out failures with
  | nil => trivial
  | cons mandateId rest ih =>
    refine Asks.bind killLocally_plain.outcomeOf fun outcome => ?_
    cases outcome with
    | ok result => exact ih _ _
    | error err => exact Asks.bind (p := Async.settled (errText err)) trivial fun text => ih _ _

theorem blockAndKill_plain : (registry.blockAndKill agentId opts).Asks Plain fun _ => True := by
  refine Asks.bind (Asks.orThrow (Asks.perform trivial)) fun blockedAt => ?_
  refine Asks.bind (Asks.orThrow (Asks.perform trivial)) fun _ => ?_
  refine Asks.bind (audit_asks trivial) fun _ => ?_
  refine Asks.bind (Asks.orThrow (Asks.perform trivial)) fun mandateIds => ?_
  refine Asks.bind (killAll_plain mandateIds [] []) fun killed => ?_
  refine Asks.bind ?_ fun _ => trivial
  unfold RevocationRegistry.auditPartial
  split
  · trivial
  · exact audit_asks trivial

theorem publishReserved_stamps : (registry.publishReserved version purpose).Meets
    (stamping registry.name) (fun φ r => φ.Holds version ∧ ∀ credential, r = .ok credential →
      φ = .noted version ∧ credential.version = version) (.reserved version) := by
  have quiet : ∀ {α : Type} {φ : Stamping} {p : RegistryProgram α}, p.Asks Plain (fun _ => True) →
      p.Meets (stamping registry.name) (fun φ' _ => φ' = φ) φ :=
    fun asks => (asks.meets fun _ => quiet_plain).mono fun _ _ unmoved => unmoved.1
  have failed : ∀ φ (e : Thrown), φ = Stamping.reserved version → φ.Holds version ∧
      ∀ credential, (.error e : Throwing StatusListCredential) = .ok credential →
        φ = .noted version ∧ credential.version = version := by
    rintro _ e rfl
    exact ⟨rfl, no_credential e⟩
  refine Meets.bind (quiet (Asks.orThrow (Asks.perform trivial))) ?_ failed
  rintro _ snap rfl
  refine Meets.bind (quiet trivial) ?_ failed
  rintro _ bits rfl
  refine Meets.bind (quiet trivial) ?_ failed
  rintro _ list rfl
  refine Meets.bind (quiet ((setAgents_asks _ _).widen fun _ => Looks.plain)) ?_ failed
  rintro _ list' rfl
  refine Meets.bind ((publishStatusListWith_asks list'.1).meets fun _ signs => quiet_plain signs.plain)
    ?_ fun φ e unmoved => failed φ e unmoved.1
  rintro _ credential ⟨rfl, signed⟩
  refine (meets_bind _ _ _).mpr ⟨⟨rfl, rfl⟩, ?_⟩
  rintro ans _ rfl
  refine Meets.bind (quiet (audit_asks trivial)) ?_ ?_
  · rintro _ _ rfl
    refine ⟨rfl, fun other same => ?_⟩
    cases same
    exact ⟨rfl, (signed _ rfl).2⟩
  · rintro _ e rfl
    exact ⟨rfl, no_credential e⟩

/-- A publish that is signed keeps its version, and any other gives it back. -/
theorem publish_stamps : (registry.publish version purpose).Meets (stamping registry.name)
    (fun φ r => ∀ credential, r = .ok credential → φ = .noted version ∧ credential.version = version)
    .none := by
  unfold RevocationRegistry.publish
  split
  · exact no_credential _
  · refine (meets_bind _ _ _).mpr ⟨rfl, ?_⟩
    rintro floor _ rfl
    cases floor with
    | some floor => exact no_credential _
    | none =>
      refine (meets_bind _ _ _).mpr ((Async.meets_outcomeOf _ _).mpr
        (publishReserved_stamps.mono fun φ r stamped => ?_))
      obtain ⟨holds, noted⟩ := stamped
      refine (meets_bind _ _ _).mpr ?_
      cases φ with
      | none => exact holds.elim
      | reserved held =>
        obtain rfl : held = version := holds
        refine ⟨⟨rfl, rfl⟩, ?_⟩
        rintro _ _ rfl credential same
        cases (noted credential same).1
      | noted held =>
        obtain rfl : held = version := holds
        refine ⟨⟨rfl, rfl⟩, ?_⟩
        rintro _ _ rfl credential same
        exact noted credential same

theorem serve_stamps (call : RegistryCall) : (registry.serve call).Meets (stamping registry.name)
    (fun φ r => ∀ credential, r = .ok (.published credential) → φ = .noted credential.version) .none := by
  have plain : ∀ {α : Type} {f : α → CallResult} {p : RegistryProgram α}, p.Asks Plain (fun _ => True) →
      (∀ a credential, f a ≠ .published credential) →
      (f <$> p).Meets (stamping registry.name)
        (fun φ r => ∀ credential, r = .ok (.published credential) → φ = .noted credential.version) .none := by
    intro α f p asks other
    refine (meets_map _ _ _).mpr ((asks.meets fun _ => quiet_plain).mono fun φ r _ credential same => ?_)
    cases r with
    | error e => cases same
    | ok a => exact absurd (Except.ok.inj same) (other a credential)
  cases call with
  | assignIndex mandateId agentId =>
    refine plain (run_plain ?_) (fun _ _ same => by cases same)
    refine Asks.bind (Asks.orThrow (Asks.perform trivial)) fun index => ?_
    cases index with
    | none => trivial
    | some index => exact Asks.bind (audit_asks trivial) fun _ => trivial
  | revokeMandate mandateId opts => exact plain (run_plain killLocally_plain) (fun _ _ same => by cases same)
  | revokeAgent agentId opts => exact plain (run_plain blockAndKill_plain) (fun _ _ same => by cases same)
  | unsuspendMandate mandateId byWhom =>
    refine plain (run_plain (Asks.bind (Asks.orThrow (Asks.perform trivial)) fun found => ?_))
      (fun _ _ same => by cases same)
    cases found with
    | none => trivial
    | some record =>
      rw [RevocationRegistry.liftRecord]
      split
      · trivial
      · exact Asks.bind (Asks.orThrow (Asks.perform trivial)) fun _ => audit_asks trivial
  | unblockAgent agentId byWhom =>
    refine plain (run_plain (Asks.bind (Asks.orThrow (Asks.perform trivial)) fun found => ?_))
      (fun _ _ same => by cases same)
    cases found with
    | none => trivial
    | some block =>
      rw [RevocationRegistry.liftBlock]
      split
      · trivial
      · exact Asks.bind (Asks.orThrow (Asks.perform trivial)) fun _ => audit_asks trivial
  | publish version purpose =>
    refine (meets_map _ _ _).mpr (publish_stamps.mono fun φ r stamped credential same => ?_)
    cases r with
    | error e => cases same
    | ok own =>
      cases same
      obtain ⟨noted, version⟩ := stamped credential rfl
      rw [noted, version]
  | check intent => exact plain (registryCheck_asks.widen fun _ => Looks.plain) (fun _ _ same => by cases same)

end Programs

/-! ### What a step keeps -/

section Steps
variable {ι : Type} {name : ℕ} {floor : Number} {w w' : RegistryWorld ι} {phases : ι → Stamping}
  {i : ι} {op : RegistryOp} {ans : op.Answer}

/-- A reserved version is counted as one being signed, a noted one is not above the last published
one, no two publishes hold the same, and none holds one that is not above the floor. -/
structure Stamped (name : ℕ) (floor : Number) (w : RegistryWorld ι) (phases : ι → Stamping) : Prop where
  number : (w.lastPublishedVersion name).isNaN = false
  numbers : ∀ v ∈ w.signingVersions name, v.isNaN = false
  above : floor ≤ w.lastPublishedVersion name
  reserved : ∀ i v, phases i = .reserved v → v ∈ w.signingVersions name ∧ floor < v
  noted : ∀ i v, phases i = .noted v → v ≤ w.lastPublishedVersion name ∧ floor < v
  apart : ∀ i j v, (phases i).Holds v → (phases j).Holds v → i = j

theorem RegistryEffect.versions_kept (effect : RegistryEffect w i op w') (plain : Plain op) :
    w'.signingVersions = w.signingVersions ∧ w'.lastPublishedVersion = w.lastPublishedVersion := by
  cases effect with
  | reserve | publish | release => exact plain.elim
  | _ => exact ⟨rfl, rfl⟩

/-- A version that a publish holds is not above the floor of the next one. -/
theorem Stamped.le_floor (stamped : Stamped name floor w phases) (holds : (phases i).Holds v) :
    v ≤ w.versionFloor name := by
  obtain ⟨-, base, each⟩ := foldl_maxOf stamped.number stamped.numbers
  cases phase : phases i with
  | none =>
    rw [phase] at holds
    exact holds.elim
  | reserved held =>
    rw [phase] at holds
    obtain rfl : held = v := holds
    exact each _ (stamped.reserved i _ phase).1
  | noted held =>
    rw [phase] at holds
    obtain rfl : held = v := holds
    exact Number.le_trans (stamped.noted i _ phase).1 base

variable [DecidableEq ι]

/-- A phase that holds nothing it did not hold before. -/
theorem apart_update {φ : Stamping} (apart : ∀ i j v, (phases i).Holds v → (phases j).Holds v → i = j)
    (kept : ∀ j v, φ.Holds v → (phases j).Holds v → i = j) :
    ∀ j k v, (Function.update phases i φ j).Holds v → (Function.update phases i φ k).Holds v → j = k := by
  intro j k v left right
  by_cases mine : j = i
  · subst mine
    by_cases same : k = j
    · exact same.symm
    · rw [Function.update_self] at left
      rw [Function.update_of_ne same] at right
      exact kept k v left right
  · rw [Function.update_of_ne mine] at left
    by_cases same : k = i
    · subst same
      rw [Function.update_self] at right
      exact (kept j v right left).symm
    · rw [Function.update_of_ne same] at right
      exact apart j k v left right

theorem Stamped.reserve (stamped : Stamped name floor w phases) (safe : version.isSafeInteger = true)
    (accepted : ¬version ≤ w.versionFloor name) :
    Stamped name floor (w.sign name (w.signingVersions name ++ [version]))
      (Function.update phases i (.reserved version)) := by
  obtain ⟨number, base, each⟩ := foldl_maxOf stamped.number stamped.numbers
  have own : version.isNaN = false := Number.isNaN_of_isSafeInteger safe
  have taller : w.versionFloor name < version := Number.lt_of_not_le number own accepted
  have signing : (w.sign name (w.signingVersions name ++ [version])).signingVersions name =
      w.signingVersions name ++ [version] := Function.update_self ..
  refine ⟨stamped.number, ?_, stamped.above, fun j v phase => ?_, fun j v phase => ?_,
    apart_update stamped.apart fun j v mine theirs => ?_⟩
  · rw [signing]
    intro v member
    rcases List.mem_append.mp member with old | new
    · exact stamped.numbers v old
    · rw [List.mem_singleton.mp new]
      exact own
  · rw [signing]
    by_cases same : j = i
    · subst same
      rw [Function.update_self] at phase
      cases phase
      exact ⟨List.mem_append_right _ (List.mem_singleton.mpr rfl),
        Number.lt_of_le_of_lt (Number.le_trans stamped.above base) taller⟩
    · rw [Function.update_of_ne same] at phase
      obtain ⟨member, beyond⟩ := stamped.reserved j v phase
      exact ⟨List.mem_append_left _ member, beyond⟩
  · by_cases same : j = i
    · subst same
      rw [Function.update_self] at phase
      cases phase
    · rw [Function.update_of_ne same] at phase
      exact stamped.noted j v phase
  · obtain rfl : version = v := mine
    exact absurd (stamped.le_floor theirs) accepted

theorem Stamped.note (stamped : Stamped name floor w phases) (phase : phases i = .reserved version) :
    Stamped name floor (w.published name (maxOf (w.lastPublishedVersion name) version))
      (Function.update phases i (.noted version)) := by
  obtain ⟨member, beyond⟩ := stamped.reserved i version phase
  have own := stamped.numbers version member
  have bounds := le_maxOf stamped.number own
  have last : (w.published name (maxOf (w.lastPublishedVersion name) version)).lastPublishedVersion
      name = maxOf (w.lastPublishedVersion name) version := Function.update_self ..
  refine ⟨?_, stamped.numbers, ?_, fun j v held => ?_, fun j v held => ?_,
    apart_update stamped.apart fun j v mine theirs => ?_⟩
  · rw [last]
    exact isNaN_maxOf stamped.number own
  · rw [last]
    exact Number.le_trans stamped.above bounds.1
  · by_cases same : j = i
    · subst same
      rw [Function.update_self] at held
      cases held
    · rw [Function.update_of_ne same] at held
      exact stamped.reserved j v held
  · rw [last]
    by_cases same : j = i
    · subst same
      rw [Function.update_self] at held
      cases held
      exact ⟨bounds.2, beyond⟩
    · rw [Function.update_of_ne same] at held
      obtain ⟨below, beyond⟩ := stamped.noted j v held
      exact ⟨Number.le_trans below bounds.1, beyond⟩
  · refine stamped.apart i j v ?_ theirs
    rw [phase]
    exact mine

theorem Stamped.release (stamped : Stamped name floor w phases) (holds : (phases i).Holds version)
    (gone : ∀ v, φ ≠ .reserved v) (kept : ∀ v, φ = .noted v → phases i = .noted v) :
    Stamped name floor (w.sign name ((w.signingVersions name).filter (· ≠ version)))
      (Function.update phases i φ) := by
  have signing : (w.sign name ((w.signingVersions name).filter (· ≠ version))).signingVersions name =
      (w.signingVersions name).filter (· ≠ version) := Function.update_self ..
  refine ⟨stamped.number, ?_, stamped.above, fun j v phase => ?_, fun j v phase => ?_,
    apart_update stamped.apart fun j v mine theirs => ?_⟩
  · rw [signing]
    exact fun v member => stamped.numbers v (List.mem_filter.mp member).1
  · rw [signing]
    by_cases same : j = i
    · subst same
      rw [Function.update_self] at phase
      exact absurd phase (gone v)
    · rw [Function.update_of_ne same] at phase
      obtain ⟨member, beyond⟩ := stamped.reserved j v phase
      refine ⟨List.mem_filter.mpr ⟨member, decide_eq_true ?_⟩, beyond⟩
      rintro rfl
      refine same (stamped.apart j i _ ?_ holds)
      rw [phase]
      rfl
  · by_cases same : j = i
    · subst same
      rw [Function.update_self] at phase
      exact stamped.noted j v (kept v phase)
    · rw [Function.update_of_ne same] at phase
      exact stamped.noted j v phase
  · cases φ with
    | none => exact mine.elim
    | reserved held => exact absurd rfl (gone held)
    | noted held =>
      refine stamped.apart i j v ?_ theirs
      rw [kept held rfl]
      exact mine

theorem Stamped.step (stamped : Stamped name floor w phases) (allowed : (phases i).Allows name op)
    (works : RegistryWorks w i op ans w') :
    Stamped name floor w' (Function.update phases i ((phases i).next op ans)) := by
  have plain : Plain op → Stamped name floor w' (Function.update phases i ((phases i).next op ans)) := by
    intro plain
    obtain ⟨signing, last⟩ := works.effect.versions_kept plain
    have next : (phases i).next op ans = phases i := (quiet_plain plain : (stamping name).Quiet (phases i) op).2 ans _ rfl
    rw [next, Function.update_eq_self]
    refine ⟨?_, ?_, ?_, ?_, ?_, stamped.apart⟩
    · rw [last]
      exact stamped.number
    · rw [signing]
      exact stamped.numbers
    · rw [last]
      exact stamped.above
    · rw [signing]
      exact stamped.reserved
    · rw [last]
      exact stamped.noted
  cases op with
  | reserveVersion r v =>
    cases phase : phases i with
    | none =>
      rw [phase] at allowed
      obtain rfl : r = name := allowed
      simp only [RegistryWorks] at works
      split at works
      · obtain ⟨rfl, rfl⟩ := works
        change Stamped r floor w' (Function.update phases i .none)
        rw [← phase, Function.update_eq_self]
        exact stamped
      · rename_i accepted
        obtain ⟨rfl, rfl⟩ := works
        rw [Bool.or_eq_true, not_or, Bool.not_eq_true', Bool.not_eq_false, decide_eq_true_eq] at accepted
        exact stamped.reserve accepted.1 accepted.2
    | reserved | noted =>
      rw [phase] at allowed
      exact allowed.elim
  | notePublished r v =>
    cases works
    cases phase : phases i with
    | reserved held =>
      rw [phase] at allowed
      obtain ⟨rfl, rfl⟩ := allowed
      exact stamped.note phase
    | none | noted =>
      rw [phase] at allowed
      exact allowed.elim
  | releaseVersion r v =>
    cases works
    cases phase : phases i with
    | none =>
      rw [phase] at allowed
      exact allowed.elim
    | reserved held =>
      rw [phase] at allowed
      obtain ⟨rfl, rfl⟩ := allowed
      refine stamped.release (by rw [phase]; rfl) (fun _ same => by cases same) (fun _ same => by cases same)
    | noted held =>
      rw [phase] at allowed
      obtain ⟨rfl, rfl⟩ := allowed
      refine stamped.release (by rw [phase]; rfl) (fun _ same => by cases same) (fun _ same => phase.trans same)
  | _ => exact plain trivial

end Steps
end Vaduno.Revocation
