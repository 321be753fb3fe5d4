import Vaduno.Revocation.Versions

/-! Published lists in the order of their versions. A list shows every kill that came before its
publish. A higher version shows all that a lower one does, unless the lower one reads the store again
after a kill that the higher one's snapshot is too old for. -/
namespace Vaduno.Revocation
open Ecma Ledger Enforce Async

def ReadsStore : RegistryOp → Prop
  | .snapshot | .getAgentBlock _ | .mandatesFor _ | .indexOf _ => True
  | _ => False

section Steps
variable {ι : Type} {w w' : RegistryWorld ι} {i : ι} {op : RegistryOp} {ans : op.Answer}

theorem LiveWorks.grows (answered : LiveWorks w i op ans w') : Grows w.store w'.store := by
  rcases answered.1.effect.store_moved with same | moved
  · rw [same]
    exact .refl
  · rw [moved]
    exact answered.2.grows

/-- Where an answer leads a publish: nowhere, to its snapshot, or to a later read. -/
inductive Collected (store : MemoryRevocationStore) (op : RegistryOp) : Collecting → Collecting → Prop
  | stays : Collected store op φ φ
  | takes (snapshot : op = .snapshot) : Collected store op .before (.listing store store)
  | reads (read : ReadsStore op) : Collected store op (.listing since till) (.listing since store)

theorem LiveWorks.collects {φ : Collecting} (answered : LiveWorks w i op ans w')
    (grown : ∀ since till, φ = .listing since till → Grows since w.store ∧ Grows till w.store) :
    ∃ φ', φ.Leads op ans φ' ∧ Collected w'.store op φ φ' := by
  have works := answered.1
  cases op with
  | snapshot =>
    cases ans with
    | error e => exact ⟨φ, by cases φ <;> rfl, .stays⟩
    | ok snap =>
      cases φ with
      | listing since till => exact ⟨_, rfl, .stays⟩
      | before =>
        obtain ⟨same, rfl⟩ := fallibly_ok works
        exact ⟨_, ⟨w'.store, Except.ok.inj same, rfl⟩, .takes rfl⟩
  | getAgentBlock agentId =>
    cases ans with
    | error e => exact ⟨φ, by cases φ <;> rfl, .stays⟩
    | ok found =>
      cases φ with
      | before => exact ⟨_, rfl, .stays⟩
      | listing since till =>
        obtain ⟨same, rfl⟩ := fallibly_ok works
        obtain ⟨early, late⟩ := grown since till rfl
        exact ⟨_, ⟨w'.store, early, late, Except.ok.inj same, rfl⟩, .reads trivial⟩
  | mandatesFor agentId =>
    cases ans with
    | error e => exact ⟨φ, by cases φ <;> rfl, .stays⟩
    | ok found =>
      cases φ with
      | before => exact ⟨_, rfl, .stays⟩
      | listing since till =>
        obtain ⟨same, rfl⟩ := fallibly_ok works
        obtain ⟨early, late⟩ := grown since till rfl
        exact ⟨_, ⟨w'.store, early, late, Except.ok.inj same, rfl⟩, .reads trivial⟩
  | indexOf mandateId =>
    cases ans with
    | error e => exact ⟨φ, by cases φ <;> rfl, .stays⟩
    | ok found =>
      cases φ with
      | before => exact ⟨_, rfl, .stays⟩
      | listing since till =>
        obtain ⟨same, rfl⟩ := fallibly_ok works
        obtain ⟨early, late⟩ := grown since till rfl
        exact ⟨_, ⟨w'.store, early, late, Except.ok.inj same, rfl⟩, .reads trivial⟩
  | _ => exact ⟨φ, by cases φ <;> rfl, .stays⟩

end Steps

/-! ### One list -/

section Single
variable {ι : Type} [DecidableEq ι] {registry : RevocationRegistry}
  {mid final : Pool RegistryOp.Answer Thrown CallResult (RegistryWorld ι) ι}
  {later : List (ι × Event RegistryOp.Answer)} {p : ι}

/-- The list that a credential carries. -/
structure Carries (registry : RevocationRegistry) (credential : StatusListCredential)
    (made bits : Bitstring) : Prop where
  fresh : Bitstring.ofEntries registry.entries = .ok made
  length : bits.length = made.length
  encoded : credential.encodedList = bits.encode registry.zlib

theorem published_listed {φ : Collecting} {r : Throwing StatusListCredential}
    (listed : Listed registry version φ r) (same : r.map CallResult.published = .ok (.published c)) :
    Listed registry version φ (.ok c) := by
  cases r with
  | error e => cases same
  | ok own =>
    cases same
    exact listed

/-- A publish that started when the store was `start`. -/
structure Later (start : MemoryRevocationStore) (w : RegistryWorld ι) (φ : Collecting) : Prop where
  started : Grows start w.store
  grown : ∀ since till, φ = .listing since till →
    Grows start since ∧ Grows since w.store ∧ Grows till w.store

/-- A list shows all that the store showed when its publish started. -/
theorem listed_since (run : Run LiveWorks mid later final)
    (starts : mid.threads p = registry.serve (.publish version .revocation))
    (returned : final.threads p = .done (.ok (.published credential))) :
    ∃ made bits, Carries registry credential made bits ∧
      ∀ x, Shown mid.world.store x → bits.get x = .ok true := by
  have meets : (mid.threads p).Meets collecting (fun φ r => ∀ c, r = .ok (.published c) →
      Listed registry version φ (.ok c)) .before := by
    rw [starts]
    exact (meets_map _ _ _).mpr (publish_lists.mono fun φ r listed c same =>
      published_listed listed same)
  have own : ∀ {w : RegistryWorld ι} {φ : Collecting} {op : RegistryOp} {ans : op.Answer}
      {w' : RegistryWorld ι}, Later mid.world.store w φ → collecting.allowed φ op →
      LiveWorks w p op ans w' → ∃ φ', collecting.step φ op ans φ' ∧ Later mid.world.store w' φ' := by
    intro w φ op ans w' after allowed answered
    have onward := answered.grows
    obtain ⟨φ', leads, collected⟩ :=
      answered.collects fun since till same => (after.grown since till same).2
    refine ⟨φ', leads, after.started.trans onward, fun since till same => ?_⟩
    cases collected with
    | stays =>
      obtain ⟨early, first, last⟩ := after.grown since till same
      exact ⟨early, first.trans onward, last.trans onward⟩
    | takes snapshot =>
      cases same
      exact ⟨after.started.trans onward, .refl, .refl⟩
    | reads read =>
      cases same
      obtain ⟨early, first, last⟩ := after.grown _ _ rfl
      exact ⟨early, first.trans onward, .refl⟩
  have others : ∀ {w : RegistryWorld ι} {φ : Collecting} {j : ι} {op : RegistryOp} {ans : op.Answer}
      {w' : RegistryWorld ι}, j ≠ p → Later mid.world.store w φ → LiveWorks w j op ans w' →
      Later mid.world.store w' φ := by
    intro w φ j op ans w' other after answered
    have onward := answered.grows
    refine ⟨after.started.trans onward, fun since till same => ?_⟩
    obtain ⟨early, first, last⟩ := after.grown since till same
    exact ⟨early, first.trans onward, last.trans onward⟩
  obtain ⟨φ, after, settled⟩ :=
    run.watch p (Later mid.world.store) meets ⟨.refl, fun _ _ => nofun⟩ own others
  rw [returned] at settled
  obtain ⟨-, since, till, made, bits, rfl, fresh, encoded, fits, shows⟩ :=
    settled credential rfl credential rfl
  exact ⟨made, bits, ⟨fresh, fits.length, encoded⟩,
    fun x shown => shows x ((after.grown since till rfl).1.shown shown)⟩

end Single

/-! ### Two lists -/

section Pairs
variable {ι : Type} {calls : ι → RegistryCall} {events : List (ι × Event RegistryOp.Answer)}
  {w w' : RegistryWorld ι} {phases : ι → Collecting} {i : ι} {op : RegistryOp} {ans : op.Answer}

/-- No publish reads the store after a write that adds to what lists show, if a publish of a higher
version had its snapshot before that write. -/
def NoLateRead (calls : ι → RegistryCall) (events : List (ι × Event RegistryOp.Answer)) : Prop :=
  ∀ lower higher k v v' snap write written read told, calls lower = .publish v .revocation →
    calls higher = .publish v' .revocation → v < v' → Adds write → ReadsStore read →
    ¬[(higher, ⟨.snapshot, snap⟩), (k, ⟨write, written⟩), (lower, ⟨read, told⟩)].Sublist events

/-- What was shown at the snapshot of a publish is all that is shown, or a write has added to it. -/
def Fresh (events : List (ι × Event RegistryOp.Answer)) (i : ι) (since now : MemoryRevocationStore) :
    Prop :=
  ∃ snap, [(i, ⟨.snapshot, snap⟩)].Sublist events ∧ ((∀ x, Shown now x → Shown since x) ∨
    ∃ k write written, Adds write ∧
      [(i, ⟨.snapshot, snap⟩), (k, ⟨write, written⟩)].Sublist events)

/-- The store has only grown since it was read. -/
def Grown (w : RegistryWorld ι) (phases : ι → Collecting) : Prop :=
  ∀ i since till, phases i = .listing since till → Grows since w.store ∧ Grows till w.store

/-- Publishes on their way, the lower ones having seen nothing that the higher ones will not list. -/
structure Gathered (calls : ι → RegistryCall) (events : List (ι × Event RegistryOp.Answer))
    (w : RegistryWorld ι) (phases : ι → Collecting) : Prop where
  grown : Grown w phases
  fresh : ∀ i since till, phases i = .listing since till → Fresh events i since w.store
  ordered : ∀ lower higher v v' since till since' till', calls lower = .publish v .revocation →
    calls higher = .publish v' .revocation → v < v' → phases lower = .listing since till →
    phases higher = .listing since' till' → ∀ x, Shown till x → Shown since' x

theorem Fresh.step {since : MemoryRevocationStore} {j : ι} (fresh : Fresh events j since w.store)
    (answered : LiveWorks w i op ans w') : Fresh (events ++ [(i, ⟨op, ans⟩)]) j since w'.store := by
  obtain ⟨snap, taken, shows⟩ := fresh
  have longer : ∀ {l : List (ι × Event RegistryOp.Answer)}, l.Sublist events →
      l.Sublist (events ++ [(i, ⟨op, ans⟩)]) := fun short =>
    short.trans (List.sublist_append_left _ _)
  refine ⟨snap, longer taken, ?_⟩
  rcases shows with shows | ⟨k, write, written, adds, earlier⟩
  · by_cases adds : Adds op
    · exact .inr ⟨i, op, ans, adds, taken.append (List.Sublist.refl [_])⟩
    · refine .inl fun x shown => shows x ?_
      rcases answered.1.effect.store_moved with same | moved
      · rw [same] at shown
        exact shown
      · rw [moved] at shown
        exact shown_of_moves adds shown
  · exact .inr ⟨k, write, written, adds, longer earlier⟩

theorem Grown.step (grown : Grown w phases) (answered : LiveWorks w i op ans w') : Grown w' phases :=
  fun j since till phase =>
    have early := grown j since till phase
    ⟨early.1.trans answered.grows, early.2.trans answered.grows⟩

theorem Gathered.step (gathered : Gathered calls events w phases)
    (answered : LiveWorks w i op ans w') :
    Gathered calls (events ++ [(i, ⟨op, ans⟩)]) w' phases where
  grown := gathered.grown.step answered
  fresh j since till phase := (gathered.fresh j since till phase).step answered
  ordered := gathered.ordered

theorem NoLateRead.earlier (orderly : NoLateRead calls (events ++ rest)) : NoLateRead calls events := by
  intro lower higher k v v' snap write written read told low high less adds reads late
  exact orderly lower higher k v v' snap write written read told low high less adds reads
    (late.trans (List.sublist_append_left _ _))

variable [DecidableEq ι]

theorem Grown.collect {φ : Collecting} (grown : Grown w phases) (answered : LiveWorks w i op ans w')
    (collected : Collected w'.store op (phases i) φ) : Grown w' (Function.update phases i φ) := by
  have after := grown.step answered
  intro j since till phase
  by_cases same : j = i
  · subst same
    rw [Function.update_self] at phase
    subst phase
    cases earlier : phases j with
    | before =>
      rw [earlier] at collected
      cases collected with
      | takes snapshot => exact ⟨.refl, .refl⟩
    | listing since' till' =>
      rw [earlier] at collected
      cases collected with
      | stays => exact after j since till earlier
      | reads read => exact ⟨(after j _ till' earlier).1, .refl⟩
  · rw [Function.update_of_ne same] at phase
    exact after j since till phase

/-- A read of a lower version tells nothing that a higher version does not list. -/
theorem Gathered.read {since : MemoryRevocationStore} (gathered : Gathered calls events w phases)
    (answered : LiveWorks w i op ans w') (orderly : NoLateRead calls (events ++ [(i, ⟨op, ans⟩)]))
    (reads : ReadsStore op) (grown : Grows since w'.store)
    (fresh : Fresh (events ++ [(i, ⟨op, ans⟩)]) i since w'.store)
    (covers : ∀ j v v' since' till', calls j = .publish v .revocation →
      calls i = .publish v' .revocation → v < v' → phases j = .listing since' till' →
      ∀ x, Shown till' x → Shown since x) :
    Gathered calls (events ++ [(i, ⟨op, ans⟩)]) w'
      (Function.update phases i (.listing since w'.store)) := by
  have after := gathered.step answered
  have still : ∀ x, Shown w'.store x → Shown w.store x := by
    intro x shown
    have same : op.moves w.store = w.store := by
      cases op with
      | snapshot | getAgentBlock _ | mandatesFor _ | indexOf _ => rfl
      | _ => exact reads.elim
    have unmoved : w'.store = w.store := by
      rcases answered.1.effect.store_moved with unmoved | moved
      · exact unmoved
      · rw [moved, same]
    rw [← unmoved]
    exact shown
  refine ⟨fun j since' till' phase => ?_, fun j since' till' phase => ?_, ?_⟩
  · by_cases same : j = i
    · subst same
      rw [Function.update_self] at phase
      cases phase
      exact ⟨grown, .refl⟩
    · rw [Function.update_of_ne same] at phase
      exact after.grown j since' till' phase
  · by_cases same : j = i
    · subst same
      rw [Function.update_self] at phase
      cases phase
      exact fresh
    · rw [Function.update_of_ne same] at phase
      exact after.fresh j since' till' phase
  · intro lower higher v v' since' till' since'' till'' low high less left right x shown
    by_cases mine : lower = i
    · subst mine
      have other : higher ≠ lower := by
        rintro rfl
        rw [low] at high
        cases high
        exact Number.not_le_of_lt less (Number.le_of_lt less)
      rw [Function.update_self] at left
      rw [Function.update_of_ne other] at right
      cases left
      obtain ⟨snap, taken, shows | ⟨k, write, written, adds, earlier⟩⟩ :=
        gathered.fresh higher since'' till'' right
      · exact shows x (still x shown)
      · have late := earlier.append (List.Sublist.refl [(lower, (⟨op, ans⟩ : Event RegistryOp.Answer))])
        exact absurd late
          (orderly lower higher k v v' snap write written op ans low high less adds reads)
    · rw [Function.update_of_ne mine] at left
      by_cases same : higher = i
      · subst same
        rw [Function.update_self] at right
        cases right
        exact covers lower v v' since' till' low high less left x shown
      · rw [Function.update_of_ne same] at right
        exact gathered.ordered lower higher v v' since' till' since'' till'' low high less left right x
          shown

/-- A step of a publish of permanent revocations. -/
theorem Gathered.publish {φ : Collecting} (gathered : Gathered calls events w phases)
    (answered : LiveWorks w i op ans w') (orderly : NoLateRead calls (events ++ [(i, ⟨op, ans⟩)]))
    (collected : Collected w'.store op (phases i) φ) :
    Gathered calls (events ++ [(i, ⟨op, ans⟩)]) w' (Function.update phases i φ) := by
  have onward := answered.grows
  cases phase : phases i with
  | before =>
    rw [phase] at collected
    cases collected with
    | stays =>
      rw [← phase, Function.update_eq_self]
      exact gathered.step answered
    | takes snapshot =>
      subst snapshot
      refine gathered.read answered orderly trivial .refl ?_ ?_
      · exact ⟨ans, List.sublist_append_right _ _, .inl fun _ shown => shown⟩
      · intro j v v' since' till' low high less listing x shown
        exact ((gathered.grown j since' till' listing).2.trans onward).shown shown
  | listing since till =>
    rw [phase] at collected
    cases collected with
    | stays =>
      rw [← phase, Function.update_eq_self]
      exact gathered.step answered
    | reads read =>
      refine gathered.read answered orderly read ?_ ?_ ?_
      · exact (gathered.grown i since till phase).1.trans onward
      · exact (gathered.fresh i since till phase).step answered
      · intro j v v' since' till' low high less listing
        exact gathered.ordered j i v v' since' till' since till low high less listing phase

/-- The monitor of a call that matters only where the call publishes permanent revocations. -/
def watching : RegistryCall → Monitor RegistryOp.Answer Collecting
  | .publish _ .revocation => collecting
  | _ => .blind _ _

def Watched (registry : RevocationRegistry) (call : RegistryCall) (φ : Collecting)
    (r : Throwing CallResult) : Prop :=
  ∀ version credential, call = .publish version .revocation → r = .ok (.published credential) →
    Listed registry version φ (.ok credential)

theorem serve_watched (registry : RevocationRegistry) (call : RegistryCall) :
    (registry.serve call).Meets (watching call) (Watched registry call) .before := by
  have blind : (∀ version, call ≠ .publish version .revocation) →
      (registry.serve call).Meets (.blind _ _) (Watched registry call) .before := fun other =>
    (meets_blind _ _).mono fun _ _ _ version _ same => absurd same (other version)
  cases call with
  | publish version purpose =>
    cases purpose with
    | suspension => exact blind fun _ => nofun
    | revocation =>
      refine (meets_map _ _ _).mpr (publish_lists.mono fun φ r listed version' c call same => ?_)
      cases call
      exact published_listed listed same
  | _ => exact blind fun _ => nofun

variable {registry : RevocationRegistry} {world : RegistryWorld ι}
  {pool : Pool RegistryOp.Answer Thrown CallResult (RegistryWorld ι) ι}

/-- Every bit of a list is a bit of each list of a higher version. -/
theorem lists_ordered {lower higher : ι} {v v' : Number} {c c' : StatusListCredential}
    (run : Run LiveWorks (serving world fun i => (registry, calls i)) events pool)
    (orderly : NoLateRead calls events) (low : calls lower = .publish v .revocation)
    (high : calls higher = .publish v' .revocation) (less : v < v')
    (returned : pool.threads lower = .done (.ok (.published c)))
    (returned' : pool.threads higher = .done (.ok (.published c'))) :
    ∃ made bits bits', Carries registry c made bits ∧ Carries registry c' made bits' ∧
      ∀ x, bits.get x = .ok true → bits'.get x = .ok true := by
  have keeps : ∀ events w phases i op ans w',
      Grown w phases ∧ (NoLateRead calls events → Gathered calls events w phases) →
      (watching (calls i)).allowed (phases i) op → LiveWorks w i op ans w' →
      ∃ φ, (watching (calls i)).step (phases i) op ans φ ∧ Grown w' (Function.update phases i φ) ∧
        (NoLateRead calls (events ++ [(i, ⟨op, ans⟩)]) →
          Gathered calls (events ++ [(i, ⟨op, ans⟩)]) w' (Function.update phases i φ)) := by
    intro events w phases i op ans w' ⟨grown, gathered⟩ allowed answered
    by_cases publishes : ∃ version, calls i = .publish version .revocation
    · obtain ⟨version, call⟩ := publishes
      obtain ⟨φ, leads, collected⟩ := answered.collects fun since till same => grown i since till same
      refine ⟨φ, ?_, grown.collect answered collected, fun orderly =>
        (gathered orderly.earlier).publish answered orderly collected⟩
      rw [call]
      exact leads
    · refine ⟨phases i, ?_, ?_⟩
      · cases call : calls i with
        | publish version purpose =>
          cases purpose with
          | revocation => exact absurd ⟨version, call⟩ publishes
          | suspension => exact rfl
        | _ => exact rfl
      · rw [Function.update_eq_self]
        exact ⟨grown.step answered, fun orderly => (gathered orderly.earlier).step answered⟩
  obtain ⟨phases, ⟨-, gathered⟩, meets⟩ := run.invariant (fun i => watching (calls i))
    (fun i => Watched registry (calls i))
    (fun events w phases => Grown w phases ∧ (NoLateRead calls events → Gathered calls events w phases))
    (fun i => serve_watched registry (calls i))
    ⟨fun _ _ _ => nofun, fun _ =>
      ⟨fun _ _ _ => nofun, fun _ _ _ => nofun, fun _ _ _ _ _ _ _ _ _ _ _ => nofun⟩⟩ keeps
  have gathered := gathered orderly
  have left := meets lower
  have right := meets higher
  rw [returned] at left
  rw [returned'] at right
  obtain ⟨-, since, till, made, bits, listing, fresh, encoded, fits, -⟩ := left v c low rfl c rfl
  obtain ⟨-, since', till', made', bits', listing', fresh', encoded', fits', shows⟩ :=
    right v' c' high rfl c' rfl
  obtain rfl : made = made' := Except.ok.inj (fresh.symm.trans fresh')
  refine ⟨made, bits, bits', ⟨fresh, fits.length, encoded⟩, ⟨fresh, fits'.length, encoded'⟩,
    fun x set => ?_⟩
  -- the bit of the lower list is that of something shown, which the higher list shows too
  obtain ⟨n, located, has⟩ := Bitstring.get_eq_true.mp set
  obtain ⟨y, shown, place⟩ := fits.shown n has
  have set' := shows y (gathered.ordered lower higher v v' since till since' till' low high less
    listing listing' y shown)
  obtain ⟨m, located', has'⟩ := Bitstring.get_eq_true.mp set'
  rw [Bitstring.locate_congr fits'.length, place] at located'
  cases located'
  refine Bitstring.get_eq_true.mpr ⟨n, ?_, has'⟩
  rw [Bitstring.locate_congr (fits'.length.trans fits.length.symm)]
  exact located

end Pairs
end Vaduno.Revocation
