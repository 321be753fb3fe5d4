import Vaduno.Revocation.PublishOrder

/-! Published lists never go backwards: their versions are distinct and above what the ledger says was
published, they show every permanent kill that resolved before, and a higher version takes no bit of a
lower one back. -/
namespace Vaduno.Revocation
open Ecma Ledger Enforce Async

/-! ### Kills that can be published -/

/-- An answer after which the store holds a permanent record with an index. -/
def recordedBy (mandateId : JsString) (record : RevocationRecord) : (op : RegistryOp) → op.Answer → Prop
  | .get read, ans => read = mandateId ∧ ans = .ok (some record) ∧ record.purpose = .revocation ∧
    record.index.isNone = false
  | .revoke written, ans => written = record ∧ record.mandateId = mandateId ∧ ans = .ok () ∧
    record.purpose = .revocation ∧ record.index.isNone = false
  | _, _ => False

section Kills
variable {registry : RevocationRegistry} {opts : RevokeOptions} {mandateId : JsString}
  {link : Option JsString} {record : RevocationRecord}

/-- A kill that is reported with a record and as one that can be published. -/
def Reports (record : RevocationRecord) (r : Throwing RevocationResult) : Prop :=
  ∃ result, r = .ok result ∧ result.record = record ∧ result.unpublishable = false

theorem writeKill_reports (permanent : opts.purpose.getD .revocation = .revocation) (φ : Prop) :
    (registry.writeKill mandateId link opts).Meets (.heard (recordedBy mandateId record))
      (fun φ r => Reports record r → φ) φ := by
  have failed : ∀ (φ' : Prop) (e : Thrown), Reports record (.error e) → φ' := by
    rintro φ' e ⟨_, failed, -⟩
    cases failed
  unfold RevocationRegistry.writeKill
  refine heard_bind (fun φ index _ => ?_) failed
  refine heard_bind (fun φ revokedAt _ => ?_) failed
  refine meets_orThrow_bind.mpr ((meets_perform _ _).mpr ⟨trivial, fun ans φ' moved => ?_⟩)
  cases ans with
  | error e => exact failed φ' e
  | ok done =>
    refine heard_bind (fun φ'' _ kept => ?_) failed
    rintro ⟨result, same, rfl, published⟩
    cases same
    refine kept ?_
    rw [show φ' = _ from moved]
    exact .inr ⟨rfl, rfl, rfl, permanent, published⟩

theorem killLocally_reports (permanent : opts.purpose.getD .revocation = .revocation) (φ : Prop) :
    (registry.killLocally mandateId link opts).Meets (.heard (recordedBy mandateId record))
      (fun φ r => Reports record r → φ) φ := by
  have failed : ∀ (φ' : Prop) (e : Thrown), Reports record (.error e) → φ' := by
    rintro φ' e ⟨_, failed, -⟩
    cases failed
  unfold RevocationRegistry.killLocally
  refine meets_orThrow_bind.mpr ((meets_perform _ _).mpr ⟨trivial, fun ans φ' moved => ?_⟩)
  cases ans with
  | error e => exact failed φ' e
  | ok existing =>
    dsimp only [ThenOk]
    cases found : existing.filter (·.purpose = .revocation) with
    | none => exact heard_bind (fun φ link _ => writeKill_reports permanent φ) failed
    | some held =>
      obtain ⟨same, forGood⟩ := Option.filter_eq_some_iff.mp found
      rintro ⟨result, reported, rfl, published⟩
      cases reported
      rw [show φ' = _ from moved]
      exact .inr ⟨rfl, congrArg _ same, of_decide_eq_true forGood, published⟩

theorem revokeMandate_reports (permanent : opts.purpose.getD .revocation = .revocation) :
    (registry.revokeMandate mandateId opts).Meets (.heard (recordedBy mandateId record))
      (fun φ r => Reports record r → φ) False := by
  refine (meets_bracket _ _ _ _).mpr ⟨trivial, fun ans φ _ => ?_⟩
  refine (killLocally_reports permanent φ).mono fun φ r heard => ⟨trivial, fun ans φ' moved ok => ?_⟩
  rw [show φ' = _ from moved]
  exact .inl (heard ok)

variable {ι : Type} {w w' : RegistryWorld ι} {i : ι} {op : RegistryOp} {ans : op.Answer}

theorem RegistryWorks.recorded (works : RegistryWorks w i op ans w')
    (kind : recordedBy mandateId record op ans) : w'.store.get mandateId = some record ∧
      record.purpose = .revocation ∧ record.index.isNone = false := by
  cases op with
  | get read =>
    obtain ⟨rfl, rfl, permanent⟩ := kind
    obtain ⟨found, rfl⟩ := fallibly_ok works
    exact ⟨Except.ok.inj found, permanent⟩
  | revoke written =>
    obtain ⟨rfl, rfl, rfl, permanent⟩ := kind
    obtain ⟨-, rfl⟩ := fallibly_ok works
    exact ⟨(MemoryRevocationStore.get_revoke written).trans (if_pos rfl), permanent⟩
  | _ => exact kind.elim

end Kills

/-! ### Linked mandates -/

/-- Every mandate that is linked to an agent has an index. -/
def Linked (s : MemoryRevocationStore) : Prop :=
  ∀ agentId mandateId, mandateId ∈ s.byAgent agentId → ∃ k, s.indices mandateId = some k

section Links
variable {s : MemoryRevocationStore} {op : RegistryOp} {mandateId : JsString}

theorem Linked.linkSome (linked : Linked s) (own : s.indices mandateId = some k) (link : Option JsString) :
    Linked (s.linkSome mandateId link) := by
  cases link with
  | none => exact linked
  | some named =>
    intro agentId other member
    change other ∈ Function.update s.byAgent named _ agentId at member
    by_cases same : agentId = named
    · subst same
      rw [Function.update_self] at member
      split at member
      · exact linked _ _ member
      · rcases List.mem_append.mp member with old | new
        · exact linked _ _ old
        · rw [List.mem_singleton.mp new]
          exact ⟨k, own⟩
    · rw [Function.update_of_ne same] at member
      exact linked _ _ member

theorem Linked.allocate (linked : Linked s) (link : Option JsString) (capacity : Number) :
    Linked (s.allocate mandateId link capacity).2 := by
  unfold MemoryRevocationStore.allocate
  cases known : s.indices mandateId with
  | some k => exact linked.linkSome known link
  | none =>
    dsimp only
    split
    · exact linked
    · refine Linked.linkSome (k := s.next) ?_ (Function.update_self ..) link
      intro agentId other member
      obtain ⟨k, given⟩ := linked agentId other member
      have different : other ≠ mandateId := by
        rintro rfl
        cases known.symm.trans given
      exact ⟨k, (Function.update_of_ne different _ _).trans given⟩

theorem Linked.moves (linked : Linked s) : Linked (op.moves s) := by
  cases op with
  | allocate mandateId link capacity => exact linked.allocate link capacity
  | blockAgent agentId block =>
    rw [RegistryOp.moves, MemoryRevocationStore.blockAgent]
    split <;> exact linked
  | _ => exact linked

theorem linked_hydrate (entries : Number) (ledger : List Entry) :
    Linked (hydrateFromLedger entries ledger).store := by
  suffices folded : ∀ h : Hydrated, Linked h.store →
      Linked (ledger.foldl (Hydrated.row entries) h).store from
    folded _ fun _ _ member => (List.not_mem_nil member).elim
  induction ledger with
  | nil => exact fun h linked => linked
  | cons row rest ih =>
    intro h linked
    refine ih _ ?_
    rw [Hydrated.row]
    split
    · split
      · exact linked.allocate _ _
      · exact linked
    · split
      · exact linked.allocate _ _
      · exact linked
    · split <;> exact linked
    · split
      · rename_i agentId named
        have blocked : ∀ block, Linked (RegistryOp.moves h.store (.blockAgent agentId block)) :=
          fun block => linked.moves
        exact blocked _
      · exact linked
    · split <;> exact linked
    · split <;> exact linked
    · exact linked

/-- The floor that a ledger of proper numbers gives is a number. -/
theorem isNaN_hydrate {ledger : List Entry} (numbers : ∀ row ∈ ledger, ∀ version,
      asNumber (field row.data "version") = some version → version.isNaN = false) :
    (hydrateFromLedger entries ledger).lastPublishedVersion.isNaN = false := by
  suffices folded : ∀ h : Hydrated, h.lastPublishedVersion.isNaN = false →
      (ledger.foldl (Hydrated.row entries) h).lastPublishedVersion.isNaN = false from
    folded _ (by decide +kernel)
  induction ledger with
  | nil => exact fun h number => number
  | cons row rest ih =>
    intro h number
    refine ih (fun other member => numbers other (List.mem_cons_of_mem _ member)) _ ?_
    rw [Hydrated.row]
    split
    · split <;> exact number
    · split <;> exact number
    · split <;> exact number
    · split <;> exact number
    · split <;> exact number
    · split
      · rename_i version found
        exact isNaN_maxOf number (numbers row List.mem_cons_self version found)
      · exact number
    · exact number

end Links

/-! ### Whole runs -/

/-- Lists of the size of a registry come back from compression. -/
def Inflates (registry : RevocationRegistry) : Prop :=
  ∀ made bits : Bitstring, Bitstring.ofEntries registry.entries = .ok made → bits.length = made.length →
    registry.zlib.gunzipSync (registry.zlib.gzipSync bits.bytes) = .ok bits.bytes

theorem Carries.decode {registry : RevocationRegistry} (carries : Carries registry credential made bits)
    (inflates : Inflates registry) :
    Bitstring.decode registry.zlib credential.encodedList = .ok bits := by
  rw [carries.encoded]
  refine Bitstring.decode_encode ?_ (inflates made bits carries.fresh carries.length)
  intro empty
  have nonempty := (Bitstring.ofEntries_eq_ok carries.fresh).1
  have length := carries.length
  rw [Bitstring.length, Bitstring.length, empty] at length
  exact nonempty (List.length_eq_zero_iff.mp (by simpa using length.symm))

section Runs
variable {ι : Type}

/-- A registry that has just been hydrated from a ledger, onto an empty store. -/
structure Restarted (registry : RevocationRegistry) (ledger : List Entry) (w : RegistryWorld ι) : Prop where
  store : w.store = (hydrateFromLedger registry.entries ledger).store
  published : w.lastPublishedVersion registry.name =
    (hydrateFromLedger registry.entries ledger).lastPublishedVersion
  signing : w.signingVersions registry.name = []
  free : w.holder registry.name = none

/-- A list that shows the bit of an index. -/
def Lists (registry : RevocationRegistry) (credential : StatusListCredential) (x : Number) : Prop :=
  ∃ bits, Bitstring.decode registry.zlib credential.encodedList = .ok bits ∧ bits.get x = .ok true

/-- What is asked of the credentials returned by `final`, with the kills that had resolved by `mid`. -/
structure Forward (registry : RevocationRegistry) (calls : ι → RegistryCall) (floor : Number)
    (mid final : Pool RegistryOp.Answer Thrown CallResult (RegistryWorld ι) ι) : Prop where
  distinct : ∀ i j c c', i ≠ j → final.threads i = .done (.ok (.published c)) →
    final.threads j = .done (.ok (.published c')) → c.version ≠ c'.version
  above : ∀ i c, final.threads i = .done (.ok (.published c)) → floor < c.version
  mandates : ∀ k p mandateId opts version result c, calls k = .revokeMandate mandateId opts →
    opts.purpose.getD .revocation = .revocation → mid.threads k = .done (.ok (.killed result)) →
    result.unpublishable = false → calls p = .publish version .revocation →
    mid.threads p = registry.serve (calls p) → final.threads p = .done (.ok (.published c)) →
    ∃ x, result.record.index = some x ∧ Lists registry c x
  agents : ∀ k p agentId opts version results c, calls k = .revokeAgent agentId opts →
    opts.purpose.getD .revocation = .revocation → mid.threads k = .done (.ok (.killedAll results)) →
    calls p = .publish version .revocation → mid.threads p = registry.serve (calls p) →
    final.threads p = .done (.ok (.published c)) →
    ∀ mandateId ∈ mid.world.store.byAgent agentId, ∃ n : ℕ,
      mid.world.store.indices mandateId = some n ∧ Lists registry c (n : ℤ)
  onward : ∀ i j v v' c c', calls i = .publish v .revocation → calls j = .publish v' .revocation →
    v < v' → final.threads i = .done (.ok (.published c)) →
    final.threads j = .done (.ok (.published c')) → ∀ x, Lists registry c x → Lists registry c' x

variable [DecidableEq ι] {registry : RevocationRegistry} {calls : ι → RegistryCall}
  {world : RegistryWorld ι} {mid final : Pool RegistryOp.Answer Thrown CallResult (RegistryWorld ι) ι}
  {events later : List (ι × Event RegistryOp.Answer)} {floor : Number}

/-- Versions of returned lists: one each, and all above the floor. -/
theorem versions_forward (run : Run RegistryWorks (serving world fun i => (registry, calls i)) events final)
    (number : (world.lastPublishedVersion registry.name).isNaN = false)
    (signing : world.signingVersions registry.name = []) :
    ∃ phases, Stamped registry.name (world.lastPublishedVersion registry.name) final.world phases ∧
      ∀ i c, final.threads i = .done (.ok (.published c)) → phases i = .noted c.version := by
  have starts : Stamped registry.name (world.lastPublishedVersion registry.name) world
      fun _ : ι => .none := by
    refine ⟨number, ?_, Number.le_refl number, fun _ _ => nofun, fun _ _ => nofun,
      fun _ _ _ held => held.elim⟩
    rw [signing]
    exact fun v member => (List.not_mem_nil member).elim
  obtain ⟨phases, stamped, meets⟩ := run.invariant (fun _ => stamping registry.name)
    (fun _ φ r => ∀ c, r = .ok (.published c) → φ = .noted c.version)
    (fun _ w phases => Stamped registry.name (world.lastPublishedVersion registry.name) w phases)
    (fun i => serve_stamps (calls i)) starts
    fun events w phases i op ans w' stamped allowed answered =>
      ⟨_, rfl, stamped.step allowed answered⟩
  refine ⟨phases, stamped, fun i c returned => ?_⟩
  have settled := meets i
  rw [returned] at settled
  exact settled c rfl

/-- A permanent record that was reported as one that can be published. -/
theorem record_of_reported (run : Run LiveWorks (serving world fun i => (registry, calls i)) events mid)
    {k : ι} (call : calls k = .revokeMandate mandateId opts)
    (permanent : opts.purpose.getD .revocation = .revocation)
    (resolved : mid.threads k = .done (.ok (.killed result))) (published : result.unpublishable = false) :
    mid.world.store.get mandateId = some result.record ∧ result.record.purpose = .revocation ∧
      result.record.index.isNone = false := by
  refine run.heard k (recordedBy mandateId result.record)
    (fun r => ∃ reported, r = .ok (.killed reported) ∧ reported.record = result.record ∧
      reported.unpublishable = false)
    (fun w => w.store.get mandateId = some result.record ∧ result.record.purpose = .revocation ∧
      result.record.index.isNone = false) ?_
    (fun answered kind => answered.1.recorded kind) ?_ resolved ⟨result, rfl, rfl, published⟩
  · change (registry.serve (calls k)).Meets _ _ _
    rw [call]
    refine (meets_map _ _ _).mpr (Meets.mono (revokeMandate_reports permanent) ?_)
    rintro φ r heard ⟨reported, same, rest⟩
    cases r with
    | error e => cases same
    | ok own =>
      cases same
      exact heard ⟨_, rfl, rest⟩
  · rintro w j op ans w' ⟨found, rest⟩ answered
    exact ⟨answered.grows.records _ _ found rest.1, rest⟩

/-- An agent that was blocked for good, with its mandates. -/
theorem barred_of_resolved (run : Run LiveWorks (serving world fun i => (registry, calls i)) events mid)
    {k : ι} (call : calls k = .revokeAgent agentId opts)
    (permanent : opts.purpose.getD .revocation = .revocation)
    (resolved : mid.threads k = .done (.ok (.killedAll results))) :
    mid.world.store.Barred agentId := by
  refine run.heard k (barredBy agentId) (fun r => r.isOk = true) (fun w => w.store.Barred agentId) ?_
    (fun answered kind => answered.1.barred kind)
    (fun barred answered => answered.grows.blocks _ barred) resolved rfl
  change (registry.serve (calls k)).Meets _ _ _
  rw [call]
  exact (meets_map _ _ _).mpr ((revokeAgent_heard permanent).mono
    fun φ r heard ok => heard (isOk_map ok))

theorem linked_run (run : Run LiveWorks (serving world fun i => (registry, calls i)) events mid)
    (linked : Linked world.store) : Linked mid.world.store := by
  induction run with
  | start => exact linked
  | step earlier awaits answered ih =>
    rcases answered.1.effect.store_moved with same | moved
    · exact same ▸ ih
    · exact moved ▸ ih.moves

/-- Where every run that meets a condition publishes forward. -/
def PublishesForward (condition : (ι → RegistryCall) → List (ι × Event RegistryOp.Answer) → Prop) : Prop :=
  ∀ (registry : RevocationRegistry) (ledger : List Entry) (world : RegistryWorld ι)
    (calls : ι → RegistryCall) (events later : List (ι × Event RegistryOp.Answer))
    (mid final : Pool RegistryOp.Answer Thrown CallResult (RegistryWorld ι) ι),
    Inflates registry → (∀ row ∈ ledger, ∀ version,
      asNumber (field row.data "version") = some version → version.isNaN = false) →
    Restarted registry ledger world →
    Run RegistryWorks (serving world fun i => (registry, calls i)) events mid →
    Run RegistryWorks mid later final → condition calls (events ++ later) →
    Forward registry calls (hydrateFromLedger registry.entries ledger).lastPublishedVersion mid final

theorem publishes_forward : PublishesForward (ι := ι) NoLateRead := by
  intro registry ledger world calls events later mid final inflates numbers restarted before after orderly
  have inTurn : InTurn registry.name (serving world fun i => (registry, calls i)) :=
    inTurn_serving restarted.free
  have first := inTurn.live before
  have second := (inTurn.run before).live after
  have whole := first.trans second
  obtain ⟨phases, stamped, noted⟩ := versions_forward (before.trans after)
    (restarted.published ▸ isNaN_hydrate numbers) restarted.signing
  have listed : ∀ {p version c}, calls p = .publish version .revocation →
      mid.threads p = registry.serve (calls p) → final.threads p = .done (.ok (.published c)) →
      ∀ x, Shown mid.world.store x → Lists registry c x := by
    intro p version c call starts returned x shown
    rw [call] at starts
    obtain ⟨made, bits, carries, shows⟩ := listed_since second starts returned
    exact ⟨bits, carries.decode inflates, shows x shown⟩
  refine ⟨fun i j c c' apart left right same => ?_, fun i c returned => ?_, ?_, ?_, ?_⟩
  · refine apart (stamped.apart i j c.version ?_ ?_)
    · rw [noted i c left]
      rfl
    · rw [noted j c' right]
      exact same.symm
  · rw [← restarted.published]
    exact (stamped.noted i c.version (noted i c returned)).2
  · intro k p mandateId opts version result c call permanent resolved published publishes starts returned
    obtain ⟨found, forGood, indexed⟩ := record_of_reported first call permanent resolved published
    cases index : result.record.index with
    | none =>
      rw [index] at indexed
      cases indexed
    | some x =>
      exact ⟨x, rfl, listed publishes starts returned x (.inl ⟨_, _, found, forGood, index⟩)⟩
  · intro k p agentId opts version results c call permanent resolved publishes starts returned mandateId linked
    have barred := barred_of_resolved first call permanent resolved
    obtain ⟨n, given⟩ := linked_run first (restarted.store ▸ linked_hydrate _ _) agentId mandateId linked
    exact ⟨n, given, listed publishes starts returned _ (.inr ⟨_, _, barred, linked, n, given, rfl⟩)⟩
  · rintro i j v v' c c' low high less returned returned' x ⟨shown, decoded, set⟩
    obtain ⟨made, bits, bits', carries, carries', onward⟩ :=
      lists_ordered whole orderly low high less returned returned'
    obtain rfl := Except.ok.inj (decoded.symm.trans (carries.decode inflates))
    exact ⟨bits', carries'.decode inflates, onward x set⟩

end Runs

/-! ### A lower version that reads later -/

namespace Sample

/-- An instance that publishes lists of one byte, which the compression leaves as it is. -/
def publisher : RevocationRegistry := { instanceOf 0 with signs := true, entries := 8 }

/-- A kill, and two publishes. -/
def racing : ℕ → RegistryCall
  | 0 => .revokeMandate "m-1" (killOptions .revocation)
  | 1 => .publish 1 .revocation
  | _ => .publish 2 .revocation

/-- A kill, and then a publish. -/
def following : ℕ → RegistryCall
  | 0 => .revokeMandate "m-1" (killOptions .revocation)
  | 1 => .publish 1 .revocation
  | _ => .check (Vaduno.Sample.intent "i-1")

def publishing (calls : ℕ → RegistryCall) : Pool RegistryOp.Answer Thrown CallResult (RegistryWorld ℕ) ℕ :=
  serving world fun i => (publisher, calls i)

/-- Both versions are reserved and the higher one takes its snapshot; then the kill; then the rest of
the publishes. -/
def raced : Pool RegistryOp.Answer Thrown CallResult (RegistryWorld ℕ) ℕ :=
  Pool.attempt (working fun _ => true)
    ([1, 2, 2] ++ List.replicate 8 0 ++ List.replicate 5 1 ++ List.replicate 4 2) (publishing racing)

def killedFirst : Pool RegistryOp.Answer Thrown CallResult (RegistryWorld ℕ) ℕ :=
  Pool.attempt (working fun _ => true) (List.replicate 8 0) (publishing following)

def publishedAfter : Pool RegistryOp.Answer Thrown CallResult (RegistryWorld ℕ) ℕ :=
  Pool.attempt (working fun _ => true) (List.replicate 6 1) killedFirst

/-- Whether the list of a credential shows its first bit. -/
def firstBit : Option CallResult → Option Bool
  | some (.published c) =>
    match Bitstring.decode publisher.zlib c.encodedList with
    | .ok bits => (bits.get 0).toOption
    | .error _ => none
  | _ => none

def isPublishable : Option CallResult → Bool
  | some (.killed result) => !result.unpublishable
  | _ => false

theorem bits_known : firstBit (settledWith (raced.threads 1)) = some true ∧
    firstBit (settledWith (raced.threads 2)) = some false ∧
    isPublishable (settledWith (killedFirst.threads 0)) = true ∧
    (firstBit (settledWith (publishedAfter.threads 1))).isSome = true := by
  decide +kernel

theorem published_of_firstBit (known : firstBit (settledWith p) = some b) :
    ∃ c, p = .done (.ok (.published c)) ∧ ∃ bits,
      Bitstring.decode publisher.zlib c.encodedList = .ok bits ∧ bits.get 0 = .ok b := by
  cases settled : settledWith p with
  | none => rw [settled] at known; cases known
  | some result =>
    rw [settled] at known
    unfold firstBit at known
    split at known
    · rename_i c same
      cases same
      refine ⟨c, done_of_settledWith settled, ?_⟩
      split at known
      · rename_i bits decoded
        refine ⟨bits, decoded, ?_⟩
        cases read : bits.get 0 with
        | error e => rw [read] at known; cases known
        | ok bit =>
          rw [read] at known
          exact congrArg _ (Option.some.inj known)
      · cases known
    · cases known

theorem killed_of_publishable (known : isPublishable (settledWith p) = true) :
    ∃ result, p = .done (.ok (.killed result)) ∧ result.unpublishable = false := by
  cases settled : settledWith p with
  | none => rw [settled] at known; cases known
  | some reported =>
    rw [settled] at known
    unfold isPublishable at known
    split at known
    · rename_i result same
      cases same
      exact ⟨result, done_of_settledWith settled, (Bool.not_eq_true' _).mp known⟩
    · cases known

theorem inflates : Inflates publisher := fun _ _ _ _ => rfl

theorem restarted : Restarted publisher [] world := ⟨rfl, rfl, rfl, rfl⟩

theorem following_orderly (events : List (ℕ × Event RegistryOp.Answer)) : NoLateRead following events := by
  have one : ∀ {i v}, following i = .publish v .revocation → v = 1 := by
    intro i v call
    rcases i with _ | _ | i
    · cases call
    · cases call
      rfl
    · cases call
  intro lower higher k v v' snap write written read told low high less
  rw [one low, one high] at less
  exact absurd (Number.le_of_lt less) (Number.not_le_of_lt less)

end Sample

/-- A kill that had resolved is in the list that is published then. -/
theorem publishes_forward_there : ∃ result c x, Sample.killedFirst.threads 0 = .done (.ok (.killed result)) ∧
    Sample.publishedAfter.threads 1 = .done (.ok (.published c)) ∧
    result.record.index = some x ∧ Lists Sample.publisher c x := by
  obtain ⟨events, before⟩ := run_working (fun _ => true) (List.replicate 8 0)
    (Sample.publishing Sample.following)
  obtain ⟨later, after⟩ := run_working (fun _ => true) (List.replicate 6 1) Sample.killedFirst
  obtain ⟨result, killed, published⟩ := Sample.killed_of_publishable Sample.bits_known.2.2.1
  obtain ⟨b, known⟩ := Option.isSome_iff_exists.mp Sample.bits_known.2.2.2
  obtain ⟨c, returned, -⟩ := Sample.published_of_firstBit known
  have forward := publishes_forward Sample.publisher [] Sample.world Sample.following events later
    Sample.killedFirst Sample.publishedAfter Sample.inflates nofun Sample.restarted before after
    (Sample.following_orderly _)
  have starts : Sample.killedFirst.threads 1 = Sample.publisher.serve (Sample.following 1) :=
    Pool.threads_attempt (by decide)
  obtain ⟨x, index, lists⟩ := forward.mandates 0 1 "m-1" (Sample.killOptions .revocation) 1 result c rfl rfl
    killed published rfl starts returned
  exact ⟨result, c, x, killed, returned, index, lists⟩

/-- Version 1 shows the kill and version 2 does not. -/
theorem bit_taken_back : ¬PublishesForward (ι := ℕ) fun _ _ => True := by
  intro forward
  obtain ⟨events, run⟩ := run_working (fun _ => true)
    ([1, 2, 2] ++ List.replicate 8 0 ++ List.replicate 5 1 ++ List.replicate 4 2)
    (Sample.publishing Sample.racing)
  obtain ⟨c, returned, bits, decoded, set⟩ := Sample.published_of_firstBit Sample.bits_known.1
  obtain ⟨c', returned', bits', decoded', clear⟩ := Sample.published_of_firstBit Sample.bits_known.2.1
  have kept := forward Sample.publisher [] Sample.world Sample.racing [] events
    (Sample.publishing Sample.racing) Sample.raced Sample.inflates nofun Sample.restarted .start run trivial
  obtain ⟨shown, decoded'', set'⟩ := kept.onward 1 2 1 2 c c' rfl rfl (by decide +kernel) returned
    returned' 0 ⟨bits, decoded, set⟩
  cases decoded'.symm.trans decoded''
  cases clear.symm.trans set'

end Vaduno.Revocation
