import Vaduno.Revocation.IndexTurns

/-! Indices across a restart. The live registry and a ledger that is replayed give indices out by the
same rule, so they agree as long as every index reaches the ledger before the next one is given
out. -/
namespace Vaduno.Revocation
open Ecma Ledger Enforce Async

/-! ### What a step keeps -/

section Steps
variable {ι : Type} (registry : RevocationRegistry) (w : RegistryWorld ι)

/-- The numbering that a restart would rebuild. -/
def RegistryWorld.replay : Numbering := replayed registry.entries w.ledger

/-- A mandate that the replay gives nothing new, or the very index that the store has given it. -/
def Foreseen (mandateId : JsString) : Prop :=
  ((w.replay registry).indices mandateId).isSome = true ∨
    registry.entries ≤ ((w.replay registry).next : ℤ) ∨
    w.store.indices mandateId = some (w.replay registry).next

instance (mandateId : JsString) : Decidable (Foreseen registry w mandateId) :=
  inferInstanceAs (Decidable (_ ∨ _ ∨ _))

/-- A step that puts nothing between an index and its row: a row that names a mandate is foreseen,
and no clock or append of the mutation under way fails while the store is ahead of the ledger. -/
def InOrder (i : ι) (op : RegistryOp) (ans : op.Answer) (w' : RegistryWorld ι) : Prop :=
  (∀ row mandateId, w'.ledger = w.ledger ++ [row] → namedBy row = some mandateId →
    Foreseen registry w mandateId) ∧
  (w.holder registry.name = some i → Fails op ans → w'.ledger = w.ledger →
    w.store.next = (w.replay registry).next)

/-- Where a call stands, and with it the numberings of the store and of the ledger. -/
def Stands (i : ι) : IndexTurn → Prop
  | .outside => w.holder registry.name ≠ some i
  | .clean => w.holder registry.name = some i ∧ w.store.numbering = w.replay registry
  | .owing mandateId index => w.holder registry.name = some i ∧
    w.store.numbering = (w.replay registry).assign mandateId registry.entries ∧
    w.store.indices mandateId = index

/-- The store is ahead of the ledger by what is owed, and both carry only indices they gave out. -/
structure Agreeing (phases : ι → IndexTurn) : Prop where
  stands : ∀ i, Stands registry w i (phases i)
  idle : w.holder registry.name = none → w.store.numbering = w.replay registry
  records : ∀ mandateId record x, w.store.get mandateId = some record → record.index = some x →
    Shows (w.store.indices mandateId) x
  rows : ∀ row ∈ w.ledger, ∀ mandateId x, namedBy row = some mandateId → carried row = some x →
    Shows ((w.replay registry).indices mandateId) x

variable {registry w} {w' : RegistryWorld ι} {phases : ι → IndexTurn} {i : ι}

theorem Shows.mono {a b : Option ℕ} (shown : Shows a x) (grows : ∀ k, a = some k → b = some k) :
    Shows b x := by
  obtain ⟨n, given, same⟩ := shown
  exact ⟨n, grows n given, same⟩

theorem Foreseen.order (foreseen : Foreseen registry w mandateId) :
    (w.replay registry).assign mandateId registry.entries = w.replay registry ∨
      w.store.indices mandateId = some (w.replay registry).next := by
  rcases foreseen with known | full | early
  · obtain ⟨k, known⟩ := Option.isSome_iff_exists.mp known
    exact .inl (Numbering.assign_of_some known)
  · exact .inl (if_neg fun fresh => fresh.2 full)
  · exact .inr early

/-- A store that has given out as many indices as the ledger owes it nothing. -/
theorem numbering_of_next {n : Numbering} (same : (n.assign mandateId capacity).next = n.next) :
    n.assign mandateId capacity = n := by
  unfold Numbering.assign at same ⊢
  split at same
  · exact absurd same (Nat.succ_ne_self _)
  · rw [if_neg ‹_›]

/-- With as many indices in the ledger as in the store, nothing is owed any more. -/
theorem settled_of_next (stands : Stands registry w i (.owing mandateId index))
    (same : w.store.next = (w.replay registry).next) : Stands registry w i .clean := by
  refine ⟨stands.1, stands.2.1.trans (numbering_of_next ?_)⟩
  rw [← stands.2.1]
  exact same

/-- The store has given out everything that the ledger has. -/
theorem Agreeing.ahead (agreeing : Agreeing registry w phases)
    (given : (w.replay registry).indices mandateId = some k) :
    w.store.indices mandateId = some k := by
  have same : ∀ {n : Numbering}, w.store.numbering = n → n.indices mandateId = some k →
      w.store.indices mandateId = some k := fun equal known => by
    rw [← equal] at known
    exact known
  cases turn : w.holder registry.name with
  | none => exact same (agreeing.idle turn) given
  | some i =>
    have own := agreeing.stands i
    cases phase : phases i with
    | outside =>
      rw [phase] at own
      exact absurd turn own
    | clean =>
      rw [phase] at own
      exact same own.2 given
    | owing other index =>
      rw [phase] at own
      exact same own.2.1 (Numbering.indices_assign_of_some given)

/-- While it is the turn of one call, the others are outside. -/
theorem Agreeing.others (agreeing : Agreeing registry w phases)
    (turn : w.holder registry.name = some i) (other : j ≠ i) : phases j = .outside := by
  have stands := agreeing.stands j
  cases phase : phases j with
  | outside => rfl
  | clean | owing _ _ =>
    rw [phase] at stands
    exact absurd (Option.some.inj (stands.1.symm.trans turn)) other

/-- A step that leaves the numberings and the turns as they are. -/
theorem Agreeing.unmoved (agreeing : Agreeing registry w phases)
    (numbering : w'.store.numbering = w.store.numbering) (ledger : w'.ledger = w.ledger)
    (holder : w'.holder = w.holder)
    (records : ∀ mandateId record, w'.store.get mandateId = some record →
      w.store.get mandateId = some record ∨
        ∀ x, record.index = some x → Shows (w.store.indices mandateId) x) :
    Agreeing registry w' phases := by
  have indices : w'.store.indices = w.store.indices := congrArg Numbering.indices numbering
  have replay : w'.replay registry = w.replay registry := congrArg (replayed registry.entries) ledger
  refine ⟨fun i => ?_, fun free => ?_, fun mandateId record x found shown => ?_, ?_⟩
  · have stands := agreeing.stands i
    cases phase : phases i with
    | outside =>
      rw [phase] at stands
      rw [Stands, holder]
      exact stands
    | clean =>
      rw [phase] at stands
      rw [Stands, holder, numbering, replay]
      exact stands
    | owing mandateId index =>
      rw [phase] at stands
      rw [Stands, holder, numbering, replay, indices]
      exact stands
  · rw [numbering, replay]
    rw [holder] at free
    exact agreeing.idle free
  · rw [indices]
    rcases records mandateId record found with old | new
    · exact agreeing.records mandateId record x old shown
    · exact new x shown
  · rw [ledger, replay]
    exact agreeing.rows

/-- What a foreseen row gives out makes no difference to what the store has given out. -/
theorem foreseen_kept {row : Entry}
    (foreseen : ∀ mandateId, namedBy row = some mandateId → Foreseen registry w mandateId) :
    (w.store.numbering = w.replay registry →
      (w.replay registry).row registry.entries row = w.replay registry) ∧
    ∀ mandateId, ((w.replay registry).row registry.entries row).assign mandateId registry.entries =
        (w.replay registry).assign mandateId registry.entries ∨
      w.store.numbering ≠ (w.replay registry).assign mandateId registry.entries := by
  have sound : (w.replay registry).Sound := replayed_sound registry.entries w.ledger
  cases named : namedBy row with
  | none => simp [Numbering.row, named]
  | some written =>
    have order := (foreseen written named).order
    simp only [Numbering.row, named]
    refine ⟨fun same => ?_, fun mandateId => ?_⟩
    · refine order.resolve_right fun early => ?_
      have known : (w.replay registry).indices written = some (w.replay registry).next := by
        rw [← same]
        exact early.trans (congrArg some (congrArg Numbering.next same).symm)
      exact absurd (sound.below _ _ known) (lt_irrefl _)
    · by_cases same : w.store.numbering = (w.replay registry).assign mandateId registry.entries
      · refine .inl (Numbering.assign_comm_of sound (order.imp_right fun early => ?_))
        rw [← same]
        exact early
      · exact .inr same

theorem replay_record (row : Entry) :
    (w.record row).replay registry = (w.replay registry).row registry.entries row :=
  replayed_append registry.entries w.ledger row

variable [DecidableEq ι]

theorem Agreeing.update (agreeing : Agreeing registry w phases) (stands : Stands registry w i φ) :
    Agreeing registry w (Function.update phases i φ) := by
  refine ⟨fun j => ?_, agreeing.idle, agreeing.records, agreeing.rows⟩
  by_cases same : j = i
  · subst same
    rw [Function.update_self]
    exact stands
  · rw [Function.update_of_ne same]
    exact agreeing.stands j

theorem Agreeing.enter (agreeing : Agreeing registry w phases)
    (free : w.holder registry.name = none) :
    Agreeing registry (w.handTo registry.name (some i)) (Function.update phases i .clean) := by
  have held : (w.handTo registry.name (some i)).holder registry.name = some i :=
    Function.update_self ..
  refine ⟨fun j => ?_, fun none => ?_, agreeing.records, agreeing.rows⟩
  · by_cases same : j = i
    · subst same
      rw [Function.update_self]
      exact ⟨held, agreeing.idle free⟩
    · rw [Function.update_of_ne same]
      have stands := agreeing.stands j
      cases phase : phases j with
      | outside =>
        rw [Stands, held]
        exact fun equal => same (Option.some.inj equal).symm
      | clean | owing _ _ =>
        rw [phase] at stands
        cases free.symm.trans stands.1
  · cases held.symm.trans none

theorem Agreeing.leave (agreeing : Agreeing registry w phases)
    (turn : w.holder registry.name = some i) (settled : w.store.numbering = w.replay registry) :
    Agreeing registry (w.handTo registry.name none) (Function.update phases i .outside) := by
  have free : (w.handTo registry.name none).holder registry.name = none := Function.update_self ..
  refine ⟨fun j => ?_, fun _ => settled, agreeing.records, agreeing.rows⟩
  have outside : Function.update phases i .outside j = .outside := by
    by_cases same : j = i
    · rw [same, Function.update_self]
    · rw [Function.update_of_ne same, agreeing.others turn same]
  rw [outside, Stands, free]
  nofun

theorem row_grows {n : Numbering} {row : Entry} (given : n.indices mandateId = some k) :
    (n.row capacity row).indices mandateId = some k := by
  unfold Numbering.row
  split
  · exact Numbering.indices_assign_of_some given
  · exact given

theorem Agreeing.append (agreeing : Agreeing registry w phases) (timestamp : JsString)
    (allowed : (phases i).Allows registry (.append type data agentId))
    (foreseen : ∀ mandateId, namedBy (rowFor type data agentId) = some mandateId →
      Foreseen registry w mandateId) (ans : Throwing Unit) :
    Agreeing registry (w.record ⟨timestamp, type, ⟨none, agentId⟩, data⟩)
      (Function.update phases i ((phases i).next (.append type data agentId) ans)) := by
  have names : namedBy ⟨timestamp, type, ⟨none, agentId⟩, data⟩ =
      namedBy (rowFor type data agentId) := rfl
  have carries : carried ⟨timestamp, type, ⟨none, agentId⟩, data⟩ =
      carried (rowFor type data agentId) := rfl
  generalize (⟨timestamp, type, ⟨none, agentId⟩, data⟩ : Entry) = row at names carries ⊢
  rw [← names] at foreseen
  obtain ⟨clean, owing⟩ := foreseen_kept foreseen
  have replay : (w.record row).replay registry = (w.replay registry).row registry.entries row :=
    replay_record row
  -- where the row leaves a call that wrote nothing
  have elsewhere : ∀ j, Stands registry (w.record row) j (phases j) := by
    intro j
    have stands := agreeing.stands j
    cases phase : phases j with
    | outside =>
      rw [phase] at stands
      exact stands
    | clean =>
      rw [phase] at stands
      rw [Stands, replay, clean stands.2]
      exact stands
    | owing mandateId index =>
      rw [phase] at stands
      rw [Stands, replay, (owing mandateId).resolve_right fun other => other stands.2.1]
      exact stands
  have idle : (w.record row).holder registry.name = none →
      (w.record row).store.numbering = (w.record row).replay registry := by
    intro free
    rw [replay, clean (agreeing.idle free)]
    exact agreeing.idle free
  have old : ∀ earlier ∈ w.ledger, ∀ mandateId x, namedBy earlier = some mandateId →
      carried earlier = some x → Shows (((w.record row).replay registry).indices mandateId) x := by
    intro earlier member mandateId x named shown
    refine (agreeing.rows earlier member mandateId x named shown).mono fun k given => ?_
    rw [replay]
    exact row_grows given
  have new : ∀ own : (∀ mandateId x, namedBy row = some mandateId → carried row = some x →
      Shows (((w.record row).replay registry).indices mandateId) x), ∀ any ∈ (w.record row).ledger,
      ∀ mandateId x, namedBy any = some mandateId → carried any = some x →
        Shows (((w.record row).replay registry).indices mandateId) x := by
    intro own any member mandateId x named shown
    rcases List.mem_append.mp member with earlier | last
    · exact old any earlier mandateId x named shown
    · obtain rfl := List.mem_singleton.mp last
      exact own mandateId x named shown
  have stands := agreeing.stands i
  cases phase : phases i with
  | outside =>
    rw [phase] at allowed stands
    refine Agreeing.update ⟨elsewhere, idle, agreeing.records, new ?_⟩ stands
    intro mandateId x named shown
    rw [carries, allowed mandateId (names ▸ named)] at shown
    cases shown
  | clean =>
    rw [phase] at allowed stands
    refine Agreeing.update ⟨elsewhere, idle, agreeing.records, new ?_⟩ ?_
    · intro mandateId x named shown
      rw [names, show namedBy (rowFor type data agentId) = none from allowed] at named
      cases named
    · change Stands registry (w.record row) i .clean
      rw [Stands, replay, clean stands.2]
      exact stands
  | owing mandateId index =>
    rw [phase] at allowed stands
    obtain ⟨named, shows⟩ := allowed
    have caught : (w.record row).replay registry = w.store.numbering := by
      rw [replay, Numbering.row, names, named]
      exact stands.2.1.symm
    refine Agreeing.update ⟨elsewhere, idle, agreeing.records, new ?_⟩ ⟨stands.1, caught.symm⟩
    intro other x same shown
    obtain rfl : mandateId = other := Option.some.inj (named.symm.trans (names ▸ same))
    rw [caught]
    refine (shows x (carries ▸ shown)).mono fun k given => ?_
    exact stands.2.2.trans given

/-- An index given out in a turn is owed to the ledger from then on. -/
theorem Agreeing.allocate (agreeing : Agreeing registry w phases)
    (turn : w.holder registry.name = some i) (settled : w.store.numbering = w.replay registry)
    (link : Option JsString) :
    Agreeing registry (w.withStore (w.store.allocate mandateId link registry.entries).2)
      (Function.update phases i
        (.owing mandateId (w.store.allocate mandateId link registry.entries).1)) := by
  obtain ⟨numbering, index⟩ := allocate_numbering w.store mandateId link registry.entries
  refine ⟨fun j => ?_, fun free => ?_, fun other record x found shown => ?_, agreeing.rows⟩
  · by_cases same : j = i
    · subst same
      rw [Function.update_self]
      refine ⟨turn, numbering.trans (congrArg (Numbering.assign · mandateId registry.entries) settled), ?_⟩
      rw [index, ← numbering]
      rfl
    · rw [Function.update_of_ne same, agreeing.others turn same]
      exact fun held => same (Option.some.inj (held.symm.trans turn))
  · cases turn.symm.trans free
  · rw [MemoryRevocationStore.get] at found
    change Keyed.find (w.store.allocate mandateId link registry.entries).2.records other = _ at found
    rw [MemoryRevocationStore.allocate_records] at found
    refine (agreeing.records other record x found shown).mono fun k given => ?_
    have grown := congrArg (Numbering.indices · other) numbering
    exact grown.trans (Numbering.indices_assign_of_some given)

/-- An operation that changes no numbering, no record and no turn. -/
theorem Agreeing.kept {op : RegistryOp} {ans : op.Answer} (agreeing : Agreeing registry w phases)
    (effect : RegistryEffect w i op w')
    (numbering : (op.moves w.store).numbering = w.store.numbering)
    (records : (op.moves w.store).records = w.store.records)
    (enters : ∀ r, op ≠ .enter r) (leaves : ∀ r, op ≠ .leave r)
    (appends : ∀ type data agentId, op ≠ .append type data agentId)
    (next : (phases i).next op ans = phases i) :
    Agreeing registry w' (Function.update phases i ((phases i).next op ans)) := by
  have same : w'.store.numbering = w.store.numbering ∧ w'.store.records = w.store.records := by
    rcases effect.store_moved with same | moved
    · rw [same]
      exact ⟨rfl, rfl⟩
    · rw [moved]
      exact ⟨numbering, records⟩
  rw [next, Function.update_eq_self]
  refine agreeing.unmoved same.1 (effect.ledger_kept appends) (effect.holder_kept enters leaves) ?_
  intro mandateId record found
  rw [MemoryRevocationStore.get, same.2] at found
  exact .inl found

theorem Agreeing.step {op : RegistryOp} {ans : op.Answer} (agreeing : Agreeing registry w phases)
    (allowed : (phases i).Allows registry op) (works : RegistryWorks w i op ans w')
    (memory : InMemory op ans) (order : InOrder registry w i op ans w') :
    Agreeing registry w' (Function.update phases i ((phases i).next op ans)) := by
  have stands := agreeing.stands i
  have effect := works.effect
  cases op with
  | enter r =>
    obtain ⟨free, rfl⟩ := works
    cases phase : phases i with
    | outside =>
      rw [phase] at allowed
      obtain rfl : r = registry.name := allowed
      exact agreeing.enter free
    | clean | owing _ _ =>
      rw [phase] at allowed
      exact allowed.elim
  | leave r =>
    cases works
    cases phase : phases i with
    | outside =>
      rw [phase] at allowed
      exact allowed.elim
    | clean =>
      rw [phase] at allowed stands
      obtain rfl : r = registry.name := allowed
      exact agreeing.leave stands.1 stands.2
    | owing mandateId index =>
      rw [phase] at allowed stands
      obtain ⟨rfl, rfl⟩ := allowed
      refine agreeing.leave stands.1 (stands.2.1.trans (Numbering.assign_of_none ?_))
      rw [← stands.2.1]
      exact stands.2.2
  | append type data agentId =>
    obtain ⟨timestamp, answered⟩ := works
    rcases fallibly_moved answered with rfl | rfl
    · cases ans with
      | ok done => exact absurd (congrArg List.length (congrArg RegistryWorld.ledger
          (fallibly_ok answered).2)) (by simp [RegistryWorld.record])
      | error e =>
        cases phase : phases i with
        | outside =>
          rw [phase] at stands
          exact agreeing.update stands
        | clean =>
          rw [phase] at stands
          exact agreeing.update stands
        | owing mandateId index =>
          rw [phase] at stands
          exact agreeing.update (settled_of_next stands (order.2 stands.1 trivial rfl))
    · exact agreeing.append timestamp allowed (fun mandateId named => order.1 _ mandateId rfl named) ans
  | allocate mandateId link capacity =>
    obtain ⟨index, rfl⟩ := memory
    obtain ⟨same, rfl⟩ := fallibly_ok works
    cases phase : phases i with
    | clean =>
      rw [phase] at allowed stands
      obtain rfl : capacity = registry.entries := allowed
      obtain rfl := Except.ok.inj same
      exact agreeing.allocate stands.1 stands.2 link
    | outside | owing _ _ =>
      rw [phase] at allowed
      exact allowed.elim
  | indexOf mandateId =>
    obtain ⟨index, rfl⟩ := memory
    obtain ⟨same, rfl⟩ := fallibly_ok works
    have read : w'.store.indices mandateId = index := Except.ok.inj same
    cases phase : phases i with
    | clean =>
      rw [phase] at stands
      cases index with
      | none => exact agreeing.update stands
      | some k =>
        have known : (w'.replay registry).indices mandateId = some k := by
          rw [← stands.2]
          exact read
        exact agreeing.update
          ⟨stands.1, stands.2.trans (Numbering.assign_of_some known).symm, read⟩
    | outside | owing _ _ =>
      rw [phase] at stands
      exact agreeing.update stands
  | nowIso =>
    cases works
    cases phase : phases i with
    | owing mandateId index =>
      rw [phase] at stands
      cases ans with
      | ok text => exact agreeing.update stands
      | error e => exact agreeing.update (settled_of_next stands (order.2 stands.1 trivial rfl))
    | outside | clean =>
      rw [phase] at stands
      exact agreeing.update stands
  | revoke record =>
    obtain ⟨done, rfl⟩ := memory
    obtain ⟨-, rfl⟩ := fallibly_ok works
    cases phase : phases i with
    | owing mandateId index =>
      rw [phase] at allowed stands
      obtain ⟨rfl, shows⟩ := allowed
      suffices moved : Agreeing registry (w.withStore (w.store.revoke record)) phases from
        moved.update stands
      refine agreeing.unmoved rfl rfl rfl fun other found get => ?_
      change (w.store.revoke record).get other = some found at get
      rw [MemoryRevocationStore.get_revoke] at get
      split at get
      · rename_i same
        cases get
        refine .inr fun x shown => ?_
        rw [← same, stands.2.2]
        exact shows x shown
      · exact .inl get
    | outside | clean =>
      rw [phase] at allowed
      exact allowed.elim
  | clear mandateId =>
    obtain ⟨done, rfl⟩ := memory
    obtain ⟨-, rfl⟩ := fallibly_ok works
    have next : (phases i).next (.clear mandateId) (.ok done) = phases i := by
      cases phases i <;> rfl
    rw [next, Function.update_eq_self]
    refine agreeing.unmoved rfl rfl rfl fun other found get => .inl ?_
    change (w.store.clear mandateId).get other = some found at get
    rw [MemoryRevocationStore.get_clear] at get
    split at get
    · cases get
    · exact get
  | blockAgent agentId block =>
    have same : (w.store.blockAgent agentId block).numbering = w.store.numbering ∧
        (w.store.blockAgent agentId block).records = w.store.records := by
      unfold MemoryRevocationStore.blockAgent
      split <;> exact ⟨rfl, rfl⟩
    exact agreeing.kept effect same.1 same.2 nofun nofun nofun (by cases phases i <;> rfl)
  | _ => exact agreeing.kept effect rfl rfl nofun nofun nofun (by cases phases i <;> rfl)

end Steps

/-! ### Whole runs -/

/-- An answer that gives a mandate an index. -/
def gaveIndex (mandateId : JsString) (k : ℕ) : (op : RegistryOp) → op.Answer → Prop
  | .allocate asked _ _, ans => asked = mandateId ∧ ans = .ok (some k)
  | _, _ => False

/-- An answer after which a row in the ledger carries the index of a mandate. -/
def wroteIndex (mandateId : JsString) : (op : RegistryOp) → op.Answer → Prop
  | .append type data agentId, ans => namedBy (rowFor type data agentId) = some mandateId ∧
    (∃ x, carried (rowFor type data agentId) = some x) ∧ ans = .ok ()
  | _, _ => False

section Runs
variable {ι : Type} {registry : RevocationRegistry} {w w' : RegistryWorld ι} {i : ι}
  {op : RegistryOp} {ans : op.Answer} {mandateId agentId : JsString}

theorem assignIndex_gives (k : ℕ) :
    (registry.serve (.assignIndex mandateId agentId)).Meets (.heard (gaveIndex mandateId k))
      (fun φ r => r = .ok (.index k) → φ) False := by
  refine (meets_map _ _ _).mpr ((meets_bracket _ _ _ _).mpr ⟨trivial, fun ans φ _ => ?_⟩)
  refine meets_orThrow_bind.mpr ((meets_perform _ _).mpr ⟨trivial, fun ans φ moved => ?_⟩)
  cases ans with
  | error e => exact ⟨trivial, fun _ _ _ => nofun⟩
  | ok index =>
    cases index with
    | none => exact ⟨trivial, fun _ _ _ => nofun⟩
    | some given =>
      have heard : given = k → φ := by
        rintro rfl
        rw [show φ = _ from moved]
        exact .inr ⟨rfl, rfl⟩
      refine heard_bind (fun φ' _ kept => ⟨trivial, fun ans φ'' moved same => ?_⟩)
        fun _ _ => ⟨trivial, fun _ _ _ => nofun⟩
      rw [show φ'' = _ from moved]
      cases same
      exact .inl (kept (heard rfl))

theorem assignIndex_writes (ledger : registry.ledger = true) (k : ℕ) :
    (registry.serve (.assignIndex mandateId agentId)).Meets (.heard (wroteIndex mandateId))
      (fun φ r => r = .ok (.index k) → φ) False := by
  refine (meets_map _ _ _).mpr ((meets_bracket _ _ _ _).mpr ⟨trivial, fun ans φ _ => ?_⟩)
  refine meets_orThrow_bind.mpr ((meets_perform _ _).mpr ⟨trivial, fun ans φ moved => ?_⟩)
  cases ans with
  | error e => exact ⟨trivial, fun _ _ _ => nofun⟩
  | ok index =>
    cases index with
    | none => exact ⟨trivial, fun _ _ _ => nofun⟩
    | some given =>
      change Meets _ _ (registry.audit _ _ _ >>= _) _
      unfold RevocationRegistry.audit
      rw [if_pos ledger]
      refine meets_orThrow_bind.mpr ((meets_perform _ _).mpr ⟨trivial, fun ans φ moved => ?_⟩)
      cases ans with
      | error e => exact ⟨trivial, fun _ _ _ => nofun⟩
      | ok done =>
        refine ⟨trivial, fun ans φ' later _ => ?_⟩
        rw [show φ' = _ from later, show φ = _ from moved]
        exact .inl (.inr ⟨namedBy_indexData, ⟨_, carried_indexData⟩, rfl⟩)

theorem RegistryWorks.gave (works : RegistryWorks w i op ans w')
    (kind : gaveIndex mandateId k op ans) : w'.store.indices mandateId = some k := by
  cases op with
  | allocate asked link capacity =>
    obtain ⟨rfl, rfl⟩ := kind
    obtain ⟨same, rfl⟩ := fallibly_ok works
    have numbered := allocate_numbering w.store asked link capacity
    have given := (congrArg (Numbering.indices · asked) numbered.1).trans numbered.2.symm
    exact given.trans (Except.ok.inj same)
  | _ => exact kind.elim

theorem RegistryWorks.wrote (works : RegistryWorks w i op ans w')
    (kind : wroteIndex mandateId op ans) :
    ∃ row ∈ w'.ledger, namedBy row = some mandateId ∧ ∃ x, carried row = some x := by
  cases op with
  | append type data agentId =>
    obtain ⟨named, shown, rfl⟩ := kind
    obtain ⟨timestamp, answered⟩ := works
    obtain ⟨-, rfl⟩ := fallibly_ok answered
    exact ⟨_, List.mem_append_right _ (List.mem_singleton.mpr rfl), named, shown⟩
  | _ => exact kind.elim

theorem RegistryWorks.indices_kept (works : RegistryWorks w i op ans w')
    (given : w.store.indices mandateId = some k) : w'.store.indices mandateId = some k := by
  rcases works.effect.store_moved with same | moved
  · rw [same]
    exact given
  · rw [moved]
    cases op with
    | allocate asked link capacity =>
      have numbered := (allocate_numbering w.store asked link capacity).1
      exact (congrArg (Numbering.indices · mandateId) numbered).trans
        (Numbering.indices_assign_of_some given)
    | blockAgent agentId block =>
      rw [RegistryOp.moves, MemoryRevocationStore.blockAgent]
      split <;> exact given
    | _ => exact given

theorem RegistryWorks.ledger_grows (works : RegistryWorks w i op ans w') (member : row ∈ w.ledger) :
    row ∈ w'.ledger := by
  cases works.effect with
  | append timestamp => exact List.mem_append_left _ member
  | _ => exact member

/-- An outside that works, with a store in memory, and puts nothing between an index and its row. -/
def OrderlyWorks (registry : RevocationRegistry) : Answers RegistryOp.Answer (RegistryWorld ι) ι :=
  fun w i op ans w' => RegistryWorks w i op ans w' ∧ InMemory op ans ∧ InOrder registry w i op ans w'

/-- Nothing has been given out, neither in the store nor in the ledger. -/
structure Unused (registry : RevocationRegistry) (w : RegistryWorld ι) : Prop where
  store : w.store = .empty
  ledger : ∀ row ∈ w.ledger, namedBy row = none
  free : w.holder registry.name = none

theorem replayed_unused {ledger : List Entry} (unnamed : ∀ row ∈ ledger, namedBy row = none) :
    replayed entries ledger = ⟨fun _ => none, 0⟩ := by
  induction ledger using List.reverseRecOn with
  | nil => rfl
  | append_singleton rows row ih =>
    have last := unnamed row (List.mem_append_right _ (List.mem_singleton.mpr rfl))
    rw [replayed_append, ih fun earlier member => unnamed earlier (List.mem_append_left _ member),
      Numbering.row, last]

theorem Unused.agreeing (unused : Unused registry w) : Agreeing registry w fun _ => .outside := by
  have replay : w.replay registry = ⟨fun _ => none, 0⟩ := replayed_unused unused.ledger
  refine ⟨fun i => ?_, fun _ => ?_, fun mandateId record x found => ?_, fun row member mandateId x named => ?_⟩
  · rw [Stands, unused.free]
    nofun
  · rw [replay, unused.store]
    rfl
  · rw [unused.store] at found
    cases found
  · rw [unused.ledger row member] at named
    cases named

/-- The indices that a restart rebuilds from the ledger are those of the live registry: the ones it
has returned, the ones in the ledger, and, while no mutation is under way, the ones it has on record
and all that a published list shows. -/
structure IndicesKept (registry : RevocationRegistry) (calls : ι → LedgerCall)
    (pool : Pool RegistryOp.Answer Thrown CallResult (RegistryWorld ι) ι)
    (restarted : MemoryRevocationStore) : Prop where
  returned : ∀ i mandateId agentId k, calls i = .registry (.assignIndex mandateId agentId) →
    pool.threads i = .done (.ok (.index k)) → restarted.indices mandateId = some k
  recorded : ∀ row ∈ pool.world.ledger, ∀ mandateId x, namedBy row = some mandateId →
    carried row = some x → Shows (restarted.indices mandateId) x
  revoked : pool.world.holder registry.name = none → ∀ mandateId record x,
    pool.world.store.get mandateId = some record → record.index = some x →
      Shows (restarted.indices mandateId) x
  shown : pool.world.holder registry.name = none → restarted.indices = pool.world.store.indices
  single : ∀ mandateId other k, restarted.indices mandateId = some k →
    restarted.indices other = some k → mandateId = other

variable [DecidableEq ι]

/-- Every run of calls from an unused store keeps its indices across a restart. -/
def IndicesSurvive (answers : RevocationRegistry → Answers RegistryOp.Answer (RegistryWorld ι) ι) : Prop :=
  ∀ (registry : RevocationRegistry) (calls : ι → LedgerCall) (world : RegistryWorld ι)
    (events : List (ι × Event RegistryOp.Answer))
    (pool : Pool RegistryOp.Answer Thrown CallResult (RegistryWorld ι) ι),
    registry.ledger = true → Unused registry world →
    Run (answers registry) ⟨world, fun i => registry.work (calls i)⟩ events pool →
    IndicesKept registry calls pool (hydrateFromLedger registry.entries pool.world.ledger).store

theorem indices_survive : IndicesSurvive (OrderlyWorks (ι := ι)) := by
  intro registry calls world events pool ledger unused run
  obtain ⟨phases, agreeing, -⟩ := run.invariant (fun _ => indexing registry) (fun _ _ _ => True)
    (fun _ w phases => Agreeing registry w phases) (fun i => work_indexing ledger (calls i))
    unused.agreeing fun events w phases i op ans w' agreeing allowed answered =>
      ⟨_, ⟨rfl, answered.2.1⟩, agreeing.step allowed answered.1 answered.2.1 answered.2.2⟩
  have rebuilt := hydrate_numbering registry.entries pool.world.ledger
  have indices : (hydrateFromLedger registry.entries pool.world.ledger).store.indices =
      (pool.world.replay registry).indices := congrArg Numbering.indices rebuilt
  have sound : (pool.world.replay registry).Sound := replayed_sound _ _
  refine ⟨fun i mandateId agentId k call returned => ?_, ?_, fun free => ?_, fun free => ?_, ?_⟩
  · have starts : registry.work (calls i) = registry.serve (.assignIndex mandateId agentId) := by
      rw [call]
      rfl
    have gave := run.heard i (gaveIndex mandateId k) (· = .ok (.index k))
      (fun w => w.store.indices mandateId = some k)
      (by simpa only [starts] using assignIndex_gives k)
      (fun answered kind => answered.1.gave kind) (fun given answered => answered.1.indices_kept given)
      returned rfl
    obtain ⟨row, member, named, x, shown⟩ := run.heard i (wroteIndex mandateId) (· = .ok (.index k))
      (fun w => ∃ row ∈ w.ledger, namedBy row = some mandateId ∧ ∃ x, carried row = some x)
      (by simpa only [starts] using assignIndex_writes ledger k)
      (fun answered kind => answered.1.wrote kind)
      (fun ⟨row, member, rest⟩ answered => ⟨row, answered.1.ledger_grows member, rest⟩) returned rfl
    obtain ⟨n, known, -⟩ := agreeing.rows row member mandateId x named shown
    have same : n = k := Option.some.inj ((agreeing.ahead known).symm.trans gave)
    rw [indices, known, same]
  · rw [indices]
    exact agreeing.rows
  · intro mandateId record x found shown
    rw [indices, ← agreeing.idle free]
    exact agreeing.records mandateId record x found shown
  · rw [indices, ← agreeing.idle free]
    rfl
  · rw [indices]
    exact sound.single

end Runs

/-! ### An index whose row did not land -/

namespace Sample

/-- Two mandates are given an index; a manager revokes the first. -/
def indexCalls : ℕ → LedgerCall
  | 0 => .registry (.assignIndex "m-1" "a-1")
  | 1 => .managerRevoke "m-1" "a-1" none
  | _ => .registry (.assignIndex "m-2" "a-1")

def audited : RevocationRegistry := { instanceOf 0 with ledger := true }

def fresh : Pool RegistryOp.Answer Thrown CallResult (RegistryWorld ℕ) ℕ :=
  ⟨world, fun i => audited.work (indexCalls i)⟩

/-- An outside that fails one append, of the first index. -/
def failing : RegistryWorld ℕ → ℕ → (op : RegistryOp) → Option (op.Answer × RegistryWorld ℕ) :=
  working fun data => (asNumber (field data "statusListIndex")).isSome.not ||
    decide (asText (field data "mandateId") ≠ some (encode "m-1"))

/-- An outside that works and takes no row out of order. -/
def orderly (w : RegistryWorld ℕ) (i : ℕ) (op : RegistryOp) : Option (op.Answer × RegistryWorld ℕ) :=
  match op with
  | .append type data agentId =>
    if (namedBy (rowFor type data agentId)).all (fun mandateId => Foreseen audited w mandateId) then
      working (fun _ => true) w i (.append type data agentId)
    else none
  | op => working (fun _ => true) w i op

def givenIndex : Option CallResult → Option ℕ
  | some (.index k) => some k
  | _ => none

theorem returned_of_given (given : givenIndex (settledWith p) = some k) :
    p = .done (.ok (.index k)) := by
  cases settled : settledWith p with
  | none => rw [settled] at given; cases given
  | some result =>
    rw [settled] at given
    unfold givenIndex at given
    split at given
    · rename_i same
      cases same
      cases given
      exact done_of_settledWith settled
    · cases given

/-- The first index is given out and its row is lost; then the second is given out. -/
def lost : Pool RegistryOp.Answer Thrown CallResult (RegistryWorld ℕ) ℕ :=
  Pool.attempt failing [0, 0, 0, 0, 2, 2, 2, 2] fresh

def kept : Pool RegistryOp.Answer Thrown CallResult (RegistryWorld ℕ) ℕ :=
  Pool.attempt orderly [0, 0, 0, 0, 1, 2, 2, 2, 2] fresh

theorem given_known : givenIndex (settledWith (lost.threads 2)) = some 1 ∧
    (hydrateFromLedger audited.entries lost.world.ledger).store.indices "m-2" = some 0 ∧
    givenIndex (settledWith (kept.threads 2)) = some 1 := by
  decide +kernel

theorem unused_world : Unused audited world := ⟨rfl, nofun, rfl⟩

end Sample

section Working
variable {ι : Type} {w w' : RegistryWorld ι} {i : ι} {op : RegistryOp} {ans : op.Answer}

theorem inMemory_of_working (answered : working appends w i op = some (ans, w')) : InMemory op ans := by
  cases op with
  | enter _ | leave _ | nowIso | append _ _ _ | reserveVersion _ _ | notePublished _ _
  | releaseVersion _ _ | validity | checkedSign _ => trivial
  | _ =>
    cases answered
    exact ⟨_, rfl⟩

theorem not_fails_of_working (answered : working (fun _ => true) w i op = some (ans, w')) :
    ¬Fails op ans := by
  cases op with
  | nowIso | append _ _ _ =>
    cases answered
    exact id
  | _ => exact id

theorem Sample.run_orderly (schedule : List ℕ)
    (pool : Pool RegistryOp.Answer Thrown CallResult (RegistryWorld ℕ) ℕ) :
    ∃ events, Run (OrderlyWorks Sample.audited) pool events
      (Pool.attempt Sample.orderly schedule pool) := by
  refine Pool.run_attempt ?_ schedule pool
  intro w i op ans w' answered
  have works : working (fun _ => true) w i op = some (ans, w') ∧
      ∀ row mandateId, w'.ledger = w.ledger ++ [row] → namedBy row = some mandateId →
        Foreseen Sample.audited w mandateId := by
    have silent : ∀ row : Entry, w.ledger ≠ w.ledger ++ [row] := fun row same => by
      simpa using congrArg List.length same
    cases op with
    | append type data agentId =>
      unfold Sample.orderly at answered
      dsimp only at answered
      split at answered
      · rename_i foreseen
        refine ⟨answered, fun row mandateId grown named => ?_⟩
        cases answered
        cases List.singleton_inj.mp (List.append_cancel_left grown)
        have known : namedBy (rowFor type data agentId) = some mandateId := named
        rw [known] at foreseen
        exact of_decide_eq_true foreseen
      · cases answered
    | _ =>
      have answered : working (fun _ => true) w i _ = some (ans, w') := answered
      refine ⟨answered, fun row mandateId grown => ?_⟩
      have kept := (works_of_working _ answered).effect.ledger_kept (fun _ _ _ => nofun)
      exact absurd (kept.symm.trans grown) (silent row)
  exact ⟨works_of_working _ works.1, inMemory_of_working works.1, works.2,
    fun _ fails => absurd fails (not_fails_of_working works.1)⟩

theorem Sample.run_failing (schedule : List ℕ)
    (pool : Pool RegistryOp.Answer Thrown CallResult (RegistryWorld ℕ) ℕ) :
    ∃ events, Run (fun w i op ans w' => RegistryWorks w i op ans w' ∧ InMemory op ans) pool events
      (Pool.attempt Sample.failing schedule pool) := by
  refine Pool.run_attempt ?_ schedule pool
  intro w i op ans w' answered
  exact ⟨works_of_working _ answered, inMemory_of_working answered⟩

end Working

/-- The second mandate keeps its index across a restart. -/
theorem indices_survive_there :
    (hydrateFromLedger Sample.audited.entries Sample.kept.world.ledger).store.indices "m-2" =
      some 1 := by
  obtain ⟨events, run⟩ := Sample.run_orderly [0, 0, 0, 0, 1, 2, 2, 2, 2] Sample.fresh
  have survived := indices_survive Sample.audited Sample.indexCalls Sample.world events Sample.kept rfl
    Sample.unused_world run
  exact survived.returned 2 "m-2" "a-1" 1 rfl (Sample.returned_of_given Sample.given_known.2.2)

/-- The index of a lost row is given out again. -/
theorem index_reused : ¬IndicesSurvive (ι := ℕ) fun _ w i op ans w' =>
    RegistryWorks w i op ans w' ∧ InMemory op ans := by
  intro survives
  obtain ⟨events, run⟩ := Sample.run_failing [0, 0, 0, 0, 2, 2, 2, 2] Sample.fresh
  have survived := survives Sample.audited Sample.indexCalls Sample.world events Sample.lost rfl
    Sample.unused_world run
  have same := survived.returned 2 "m-2" "a-1" 1 rfl (Sample.returned_of_given Sample.given_known.1)
  cases Sample.given_known.2.1.symm.trans same

end Vaduno.Revocation
