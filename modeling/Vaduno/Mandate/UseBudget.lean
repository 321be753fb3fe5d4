import Vaduno.Enforce.StoreSteps
import Vaduno.Mandate.Progress
import Vaduno.Sample

/-! The use budget of a mandate, over any number of managers that share one consume store: whatever
the order of their calls and whichever of them fail, no pair of mandate and use key is consumed
twice, no mandate more often than its uses allow, and a repeat replays what the first came to. -/
namespace Vaduno.Mandate
open Ecma Enforce Async Program

section Runs
variable {platform : Platform} {σ ι : Type} (store : ConsumeStore platform σ) (calls : ι → Call)

/-- The claim that an event says was won. -/
def wonBy : ι × Event Op.Answer → Option (ι × UseClaim)
  | (i, ⟨.claimUse claim _, .ok (.winner _)⟩) => some (i, claim)
  | _ => none

/-- The claims won so far, each by the thread that asked for it. -/
def winners (events : List (ι × Event Op.Answer)) : List (ι × UseClaim) := events.filterMap wonBy

theorem winners_append (events : List (ι × Event Op.Answer)) (e : ι × Event Op.Answer) :
    winners (events ++ [e]) = winners events ++ (wonBy e).toList := by
  cases won : wonBy e <;> simp [winners, won]

theorem wonBy_eq_some {op : Op} {ans : op.Answer} (won : wonBy (i, ⟨op, ans⟩) = some w) :
    ∃ maxUses used, w.1 = i ∧
      (⟨op, ans⟩ : Event Op.Answer) = ⟨.claimUse w.2 maxUses, .ok (.winner used)⟩ := by
  unfold wonBy at won
  split at won
  · rename_i same
    cases same
    cases won
    exact ⟨_, _, rfl, rfl⟩
  · cases won

/-- Every mandate that managers have seen under this id, with signatures that hold, names the same
number of uses: an id is never issued twice. -/
def VerifiedUses (events : List (ι × Event Op.Answer)) (mandateId : JsString) (maxUses : Double) :
    Prop :=
  ∀ i state manager intent, (i, ⟨.mandateState mandateId, some state⟩) ∈ events →
    calls i = .consume manager mandateId intent → manager.signatureProblem state.mandate = none →
    state.mandate.constraints.maxUses = .number (.fin maxUses)

/-- What ties the claims won, the store and the progress of the calls together. -/
structure Consistent (start : σ) (events : List (ι × Event Op.Answer)) (s : σ)
    (phases : ι → Standing) : Prop where
  won : ∀ {i claim}, (phases i).progress = .won claim → (i, claim) ∈ winners events
  held : ∀ {w}, w ∈ winners events → ∃ c, store.get s w.2.mandateId w.2.useKey = some c ∧
    c.intentDigest = w.2.intentDigest
  once : ((winners events).map fun w => (w.2.mandateId, w.2.useKey)).Nodup
  found : ∀ {i claim manager mandateId intent}, (phases i).progress = .found claim →
    calls i = .consume manager mandateId intent →
    ∃ c, store.get s mandateId intent.id = some c ∧ c.intentDigest = claim.intentDigest
  read : ∀ {i state manager mandateId intent},
    (phases i).progress = .registered state ∨ (phases i).progress = .absent state →
    calls i = .consume manager mandateId intent →
    (i, ⟨.mandateState mandateId, some state⟩) ∈ events
  counted : ∀ mandateId, (winners events).countP (·.2.mandateId = mandateId) +
    store.countClaims start mandateId ≤ store.countClaims s mandateId
  bounded : ∀ {mandateId maxUses}, VerifiedUses calls events mandateId maxUses →
    store.countClaims s mandateId ≤ max (store.countClaims start mandateId) ⌈maxUses.val⌉₊

variable {store calls}

theorem VerifiedUses.mono (verified : VerifiedUses calls (events ++ later) mandateId maxUses) :
    VerifiedUses calls events mandateId maxUses :=
  fun i state manager intent member => verified i state manager intent (by simp [member])

/-- A budget that is not reached has room for one more use, counted in whole uses. -/
theorem succ_le_of_reaches {count : ℕ} {d : Double}
    (room : platform.reaches (count : ℤ) (.number (.fin d)) = .ok false) :
    count + 1 ≤ ⌈d.val⌉₊ := by
  have unreached : ¬Number.fin d ≤ ((count : ℤ) : Number) := by
    simpa using room
  by_contra full
  refine unreached ?_
  rw [← Number.round_fin]
  exact Number.round_mono (Nat.ceil_le.mp (by omega))

theorem won_step {op : Op} {ans : op.Answer} (answered : StoreAnswers store s i op ans s')
    (won : wonBy (i, ⟨op, ans⟩) = some w) : w.1 = i ∧
      store.get s w.2.mandateId w.2.useKey = none ∧
      store.get s' w.2.mandateId w.2.useKey = some { w.2 with status := .pending } ∧
      store.countClaims s' w.2.mandateId = store.countClaims s w.2.mandateId + 1 := by
  obtain ⟨maxUses, used, asker, event⟩ := wonBy_eq_some won
  cases event
  cases answered.claims with
  | winner fresh room held counted =>
    exact ⟨asker, fresh, by rw [held, if_pos ⟨rfl, rfl⟩], by rw [counted, if_pos rfl]⟩

theorem Consistent.start (s : σ) : Consistent store calls s [] s fun _ => .begun where
  won := nofun
  held := nofun
  once := List.nodup_nil
  found := nofun
  read either := by rcases either with read | read <;> cases read
  counted mandateId := by simp [winners]
  bounded _ := le_max_left _ _

variable {start s s' : σ} {events later : List (ι × Event Op.Answer)} {phases : ι → Standing}
  {i : ι} {op : Op} {ans : op.Answer}
  {mid pool : Pool Op.Answer Thrown (Option ConsumeOutcome) σ ι}

theorem Consistent.same_thread (inv : Consistent store calls start events s phases)
    (left : (phases i).progress = .won claim)
    (right : (phases j).progress = .won claim')
    (mandates : claim.mandateId = claim'.mandateId) (keys : claim.useKey = claim'.useKey) :
    i = j := by
  have same := List.inj_on_of_nodup_map inv.once (inv.won left) (inv.won right)
    (Prod.ext mandates keys)
  exact (Prod.mk.inj same).1

/-- The keys won under a mandate are no more than its uses. -/
theorem Consistent.card_le (inv : Consistent store calls start events s phases)
    (verified : VerifiedUses calls events mandateId maxUses) (keys : Finset JsString)
    (won : ∀ k ∈ keys, ∃ i claim, (phases i).progress = .won claim ∧
      claim.mandateId = mandateId ∧ claim.useKey = k) : keys.card ≤ ⌈maxUses.val⌉₊ := by
  let own := (winners events).filter (·.2.mandateId = mandateId)
  have covered : keys ⊆ (own.map (·.2.useKey)).toFinset := fun k member => by
    obtain ⟨i, claim, phase, rfl, rfl⟩ := won k member
    rw [List.mem_toFinset, List.mem_map]
    exact ⟨(i, claim), List.mem_filter.mpr ⟨inv.won phase, by simp⟩, rfl⟩
  have few : keys.card ≤ own.length :=
    calc keys.card ≤ (own.map (·.2.useKey)).toFinset.card := Finset.card_le_card covered
      _ ≤ (own.map (·.2.useKey)).length := List.toFinset_card_le _
      _ = own.length := List.length_map _
  have counted := inv.counted mandateId
  have bounded := inv.bounded verified
  rw [List.countP_eq_length_filter] at counted
  change own.length + _ ≤ _ at counted
  omega

/-- The call of thread `i` was answered that it consumed a use of the pair. -/
def ConsumedBy (calls : ι → Call) (pool : Pool Op.Answer Thrown (Option ConsumeOutcome) σ ι) (i : ι)
    (mandateId useKey : JsString) (intent : PaymentIntent) : Prop :=
  ∃ manager check use, calls i = .consume manager mandateId intent ∧ useKey = intent.id ∧
    pool.threads i = .done (.ok (some (.consumed check use)))

theorem ConsumedBy.won (consumed : ConsumedBy calls pool i mandateId useKey intent)
    (meets : (pool.threads i).Meets ((calls i).monitor platform) ((calls i).Settled platform)
      (phases i)) :
    ∃ claim, (phases i).progress = .won claim ∧ claim.mandateId = mandateId ∧
      claim.useKey = useKey ∧ intentDigest platform intent = .ok claim.intentDigest := by
  obtain ⟨manager, check, use, call, rfl, settled⟩ := consumed
  rw [settled] at meets
  obtain ⟨⟨claim, manager', intent', won, call', key, digested⟩, -⟩ := meets
  rw [call] at call'
  cases call'
  exact ⟨claim, won, rfl, key, digested⟩

variable [DecidableEq ι]

/-- One answered operation keeps everything consistent. -/
theorem Consistent.step (inv : Consistent store calls start events s phases)
    (allowed : (calls i).allowed platform (phases i).progress op)
    (answered : StoreAnswers store s i op ans s') :
    Consistent store calls start (events ++ [(i, ⟨op, ans⟩)]) s'
      (Function.update phases i ((calls i).advance platform (phases i) op ans)) := by
  have persists : ∀ {mandateId useKey c}, store.get s mandateId useKey = some c →
      ∃ c', store.get s' mandateId useKey = some c' ∧ c'.intentDigest = c.intentDigest :=
    fun held => by
      obtain ⟨c', now, same, -⟩ := answered.effect.get_persists held
      exact ⟨c', now, same⟩
  constructor
  case won =>
    intro j claim phase
    rw [winners_append, List.mem_append]
    rcases eq_or_ne j i with rfl | other
    · rw [Function.update_self] at phase
      rcases advance_won phase with before | ⟨maxUses, used, event⟩
      · exact .inl (inv.won before)
      · cases event
        exact .inr (List.mem_singleton.mpr rfl)
    · rw [Function.update_of_ne other] at phase
      exact .inl (inv.won phase)
  case held =>
    intro w member
    rw [winners_append, List.mem_append] at member
    rcases member with old | new
    · obtain ⟨c, held, digest⟩ := inv.held old
      obtain ⟨c', now, same⟩ := persists held
      exact ⟨c', now, same.trans digest⟩
    · obtain ⟨-, -, now, -⟩ := won_step answered (Option.mem_toList.mp new)
      exact ⟨_, now, rfl⟩
  case once =>
    rw [winners_append, List.map_append]
    cases won : wonBy (i, ⟨op, ans⟩) with
    | none => simpa using inv.once
    | some w =>
      obtain ⟨-, fresh, -, -⟩ := won_step answered won
      rw [Option.toList_some, List.map_singleton, ← List.concat_eq_append]
      refine List.Nodup.concat (fun member => ?_) inv.once
      obtain ⟨w', earlier, same⟩ := List.mem_map.mp member
      obtain ⟨c, held, -⟩ := inv.held earlier
      rw [(Prod.mk.inj same).1, (Prod.mk.inj same).2, fresh] at held
      cases held
  case found =>
    intro j claim manager mandateId intent phase call
    have kept : ∀ {claim}, (phases j).progress = .found claim →
        ∃ c, store.get s' mandateId intent.id = some c ∧ c.intentDigest = claim.intentDigest :=
      fun before => by
        obtain ⟨c, held, digest⟩ := inv.found before call
        obtain ⟨c', now, same⟩ := persists held
        exact ⟨c', now, same.trans digest⟩
    rcases eq_or_ne j i with rfl | other
    · rw [Function.update_self] at phase
      rcases advance_found phase with before | ⟨m, k, event⟩ | ⟨c, maxUses, event⟩
      · exact kept before
      · cases event
        obtain ⟨manager', intent', state, call', rfl, -⟩ := allowed
        rw [call] at call'
        cases call'
        obtain ⟨held, rfl⟩ := answered.get
        exact ⟨claim, held, rfl⟩
      · cases event
        obtain ⟨manager', intent', state, call', key, -⟩ := allowed
        rw [call] at call'
        cases call'
        cases answered.claims with
        | duplicate held => exact ⟨claim, by rw [← key]; exact held, rfl⟩
    · rw [Function.update_of_ne other] at phase
      exact kept phase
  case read =>
    intro j state manager mandateId intent either call
    rw [List.mem_append]
    rcases eq_or_ne j i with rfl | other
    · rw [Function.update_self] at either
      have before : (phases j).progress = .registered state ∨ (phases j).progress = .absent state ∨
          ∃ m, (⟨op, ans⟩ : Event Op.Answer) = ⟨.mandateState m, some state⟩ := by
        rcases either with registered | absent
        · rcases advance_registered registered with before | event
          · exact .inl before
          · exact .inr (.inr event)
        · rcases advance_absent absent with before | ⟨before, -⟩
          · exact .inr (.inl before)
          · exact .inl before
      rcases before with before | before | ⟨m, event⟩
      · exact .inl (inv.read (.inl before) call)
      · exact .inl (inv.read (.inr before) call)
      · cases event
        obtain ⟨manager', intent', call'⟩ := allowed
        rw [call] at call'
        cases call'
        exact .inr (List.mem_singleton.mpr rfl)
    · rw [Function.update_of_ne other] at either
      exact .inl (inv.read either call)
  case counted =>
    intro mandateId
    have before := inv.counted mandateId
    have grows : store.countClaims s mandateId ≤ store.countClaims s' mandateId := by
      rcases answered.effect.count_cases mandateId with same | ⟨_, _, _, _, _, more⟩ <;> omega
    rw [winners_append, List.countP_append]
    cases won : wonBy (i, ⟨op, ans⟩) with
    | none => simp only [Option.toList_none, List.countP_nil]; omega
    | some w =>
      obtain ⟨-, -, -, more⟩ := won_step answered won
      by_cases same : w.2.mandateId = mandateId
      · subst same
        simp only [Option.toList_some, List.countP_singleton, decide_true, if_true]
        omega
      · simp only [Option.toList_some, List.countP_singleton, same, decide_false]
        simp only [Bool.false_eq_true, if_false]
        omega
  case bounded =>
    intro mandateId maxUses verified
    have before := inv.bounded verified.mono
    rcases answered.effect.count_cases mandateId with same | ⟨c, limit, rfl, rfl, room, more⟩
    · rwa [same]
    · obtain ⟨manager, intent, state, call, -, -, absent, holds, rfl⟩ := allowed
      have seen := inv.read (.inr absent) call
      rw [verified i state manager intent (by simp [seen]) call holds] at room
      rw [more]
      exact le_max_of_le_right (succ_le_of_reaches room)

/-- The calls and the store they share, before any call has begun. -/
def Shared (platform : Platform) (calls : ι → Call) (start : σ) :
    Pool Op.Answer Thrown (Option ConsumeOutcome) σ ι :=
  ⟨start, fun i => (calls i).program platform⟩

theorem consistent_of_run (run : Run (StoreAnswers store) (Shared platform calls start) events pool) :
    ∃ phases, Consistent store calls start events pool.world phases ∧
      ∀ i, (pool.threads i).Meets ((calls i).monitor platform) ((calls i).Settled platform)
        (phases i) :=
  run.invariant (fun i => (calls i).monitor platform) (fun i => (calls i).Settled platform)
    (Consistent store calls start) (fun i => (calls i).program_meets) (.start start)
    fun _ _ _ _ _ _ _ inv allowed answered => ⟨_, rfl, inv.step allowed.1 answered⟩

/-- A pair that is held when a call begins is found by it: the call claims nothing. -/
theorem late_call_replays (run : Run (StoreAnswers store) mid later pool)
    (unbegun : mid.threads i = (calls i).program platform)
    (call : calls i = .consume manager mandateId intent)
    (held : store.get mid.world mandateId intent.id = some c)
    (settled : pool.threads i = .done (.ok (some outcome))) :
    (∃ claim digestMatches, outcome = .replayed claim digestMatches) ∨
      outcome = .rejected (MandateManager.unknownMandate mandateId) := by
  -- the call never learns that its pair is absent, and claims only after it has
  obtain ⟨φ, ⟨-, present, lost⟩, meets⟩ := run.watch i (M := (calls i).monitor platform) (φ := .begun)
    (fun s φ => (∃ c, store.get s mandateId intent.id = some c) ∧
      (∀ state, φ.progress ≠ .absent state) ∧ ∀ claim, φ.progress ≠ .won claim)
    (by rw [unbegun]; exact (calls i).program_meets)
    ⟨⟨c, held⟩, (fun _ => Progress.noConfusion), fun _ => Progress.noConfusion⟩
    (fun {s φ op ans s'} inv allowed answered => by
      obtain ⟨⟨c, held⟩, present, lost⟩ := inv
      obtain ⟨c', now, -⟩ := answered.effect.get_persists held
      refine ⟨_, rfl, ⟨c', now⟩, fun state phase => ?_, fun claim phase => ?_⟩
      · rcases advance_absent phase with before | ⟨before, m, k, event⟩
        · exact present state before
        · cases event
          obtain ⟨⟨manager', intent', state', call', rfl, -⟩, -⟩ := allowed
          rw [call] at call'
          cases call'
          rw [answered.get.1] at held
          cases held
      · rcases advance_won phase with before | ⟨maxUses, used, event⟩
        · exact lost claim before
        · cases event
          obtain ⟨⟨_, _, state, _, _, _, absent, _⟩, -⟩ := allowed
          exact present state absent)
    (fun {s φ j op ans s'} _ inv answered => by
      obtain ⟨⟨c, held⟩, rest⟩ := inv
      obtain ⟨c', now, -⟩ := answered.effect.get_persists held
      exact ⟨⟨c', now⟩, rest⟩)
  rw [settled] at meets
  cases outcome with
  | consumed check use =>
    obtain ⟨⟨claim, _, _, won, _⟩, -⟩ := meets
    exact absurd won (lost claim)
  | rejected check =>
    rcases meets.1 with ⟨state, absent⟩ | ⟨-, manager', mandateId', intent', call', rfl⟩
    · exact absurd absent (present state)
    · rw [call] at call'
      cases call'
      exact .inr rfl
  | replayed claim digestMatches => exact .inl ⟨claim, digestMatches, rfl⟩

theorem outcome_persists (run : Run (StoreAnswers store) mid later pool)
    (held : store.get mid.world mandateId useKey = some c) (settled : c.status = .settled) :
    store.get pool.world mandateId useKey = some c := by
  induction run with
  | start => exact held
  | step earlier awaits answered ih =>
    obtain ⟨c', now, -, same⟩ := answered.effect.get_persists ih
    rw [now, same settled]

/-- A replay of a consumed pair matches exactly when it asks for the same payment. -/
theorem replay_matches_iff (collisionFree : CollisionFree platform)
    (run : Run (StoreAnswers store) (Shared platform calls start) events pool)
    (call : calls i = .consume manager mandateId intent)
    (settled : pool.threads i = .done (.ok (some (.replayed claim digestMatches))))
    (consumed : ConsumedBy calls pool j mandateId intent.id intent') :
    digestMatches = true ↔ SamePayment intent intent' := by
  obtain ⟨phases, inv, meets⟩ := consistent_of_run run
  have answered := meets i
  rw [settled] at answered
  obtain ⟨⟨found, digests⟩, -⟩ := answered
  obtain ⟨digest, digested, rfl⟩ := digests manager mandateId intent call
  obtain ⟨own, won, rfl, key, digested'⟩ := consumed.won (meets j)
  -- the claim that was found and the claim that was won are one row of the store
  obtain ⟨c, held, same⟩ := inv.found found call
  obtain ⟨c', held', same'⟩ := inv.held (inv.won won)
  rw [key, held] at held'
  cases held'
  rw [decide_eq_true_iff, ← same, same']
  constructor
  · intro matching
    exact samePayment_of_intentDigest collisionFree (matching ▸ digested) digested'
  · intro payment
    rw [intentDigest_congr platform payment, digested'] at digested
    exact Except.ok.inj digested

/-- For every run of any calls, split at any point: no pair is consumed twice; the pairs consumed
under a verified mandate are at most its uses, rounded up to a whole number; a replay of a consumed
pair matches exactly when it asks for the same payment; a call that begins after its pair was
consumed replays, unless its manager does not know the mandate; and an outcome that has been settled
never changes. -/
theorem use_budget (collisionFree : CollisionFree platform)
    (before : Run (StoreAnswers store) (Shared platform calls start) events mid)
    (after : Run (StoreAnswers store) mid later pool) :
    (∀ i j mandateId useKey intent intent', ConsumedBy calls pool i mandateId useKey intent →
      ConsumedBy calls pool j mandateId useKey intent' → i = j) ∧
    (∀ mandateId maxUses (keys : Finset JsString),
      VerifiedUses calls (events ++ later) mandateId maxUses →
      (∀ k ∈ keys, ∃ i intent, ConsumedBy calls pool i mandateId k intent) →
      keys.card ≤ ⌈maxUses.val⌉₊) ∧
    (∀ i j manager mandateId intent intent' claim digestMatches,
      calls i = .consume manager mandateId intent →
      pool.threads i = .done (.ok (some (.replayed claim digestMatches))) →
      ConsumedBy calls pool j mandateId intent.id intent' →
      (digestMatches = true ↔ SamePayment intent intent')) ∧
    (∀ i j manager mandateId intent intent' outcome,
      calls i = .consume manager mandateId intent →
      mid.threads i = (calls i).program platform →
      ConsumedBy calls mid j mandateId intent.id intent' →
      pool.threads i = .done (.ok (some outcome)) →
      (∃ claim digestMatches, outcome = .replayed claim digestMatches) ∨
        outcome = .rejected (MandateManager.unknownMandate mandateId)) ∧
    (∀ mandateId useKey claim, store.get mid.world mandateId useKey = some claim →
      claim.status = .settled → store.get pool.world mandateId useKey = some claim) := by
  obtain ⟨early, earlyInv, earlyMeets⟩ := consistent_of_run before
  obtain ⟨phases, inv, meets⟩ := consistent_of_run (before.trans after)
  refine ⟨?_, ?_, ?_, ?_, ?_⟩
  · intro i j mandateId useKey intent intent' left right
    obtain ⟨claim, won, rfl, rfl, -⟩ := left.won (meets i)
    obtain ⟨claim', won', mandates, keys, -⟩ := right.won (meets j)
    exact inv.same_thread won won' mandates.symm keys.symm
  · intro mandateId maxUses keys verified consumed
    refine inv.card_le verified keys fun k member => ?_
    obtain ⟨i, intent, consumed⟩ := consumed k member
    obtain ⟨claim, won, mandates, key, -⟩ := consumed.won (meets i)
    exact ⟨i, claim, won, mandates, key⟩
  · intro i j manager mandateId intent intent' claim digestMatches call settled consumed
    exact replay_matches_iff collisionFree (before.trans after) call settled consumed
  · intro i j manager mandateId intent intent' outcome call unbegun consumed settled
    obtain ⟨own, won, rfl, key, -⟩ := consumed.won (earlyMeets j)
    obtain ⟨c, held, -⟩ := earlyInv.held (earlyInv.won won)
    exact late_call_replays after unbegun call (by rw [← key]; exact held) settled
  · intro mandateId useKey claim held settled
    exact outcome_persists after held settled

end Runs

section Sample

/-- The sample's store answers from what it holds, its managers know one mandate. -/
def sampleOracle (maxUses : Number) (s : ClaimTable claimKey) (_ : Fin 2) :
    (op : Op) → op.Answer × ClaimTable claimKey
  | .claimUse c limit => (memoryConsumeStore Sample.platform).claim s c limit
  | .settleClaim mandateId useKey outcome =>
    (.ok (), (memoryConsumeStore Sample.platform).settle s mandateId useKey outcome)
  | .getClaim mandateId useKey =>
    (.ok ((memoryConsumeStore Sample.platform).get s mandateId useKey), s)
  | .mandateState _ => (some ⟨Sample.mandate maxUses, 0, false⟩, s)
  | op => (Sample.outside op, s)

theorem sampleOracle_agrees (maxUses : Number) (s : ClaimTable claimKey) (i : Fin 2) (op : Op) :
    StoreAnswers (memoryConsumeStore Sample.platform) s i op (sampleOracle maxUses s i op).1
      (sampleOracle maxUses s i op).2 := by
  cases op <;> first
    | rfl
    | exact .inl ⟨rfl, rfl⟩

/-- The outcome of a call that has one. -/
def settledOutcome : Program (Option ConsumeOutcome) → Option ConsumeOutcome
  | .done (.ok outcome) => outcome
  | _ => none

theorem done_of_settledOutcome {p : Program (Option ConsumeOutcome)}
    (settled : settledOutcome p = some outcome) : p = .done (.ok (some outcome)) := by
  unfold settledOutcome at settled
  split at settled
  · rw [settled]
  · cases settled

/-- Two deliveries of one intent. -/
def deliveries (_ : Fin 2) : Call := .consume Sample.manager "m-1" (Sample.intent "i-1")

def firstDelivered := Pool.play (sampleOracle 1) (List.replicate 9 0)
  (Shared Sample.platform deliveries .empty)

def bothDelivered := Pool.play (sampleOracle 1) (List.replicate 9 1) firstDelivered.2

/-- The second delivery replays the first and matches it. -/
theorem delivery_replays :
    ∃ claim, settledOutcome (bothDelivered.2.threads 1) = some (.replayed claim true) := by
  have first : Run (StoreAnswers (memoryConsumeStore Sample.platform))
      (Shared Sample.platform deliveries .empty) firstDelivered.1 firstDelivered.2 :=
    Pool.run_play (sampleOracle_agrees 1) _ _
  have second : Run (StoreAnswers (memoryConsumeStore Sample.platform)) firstDelivered.2
      bothDelivered.1 bothDelivered.2 := Pool.run_play (sampleOracle_agrees 1) _ _
  obtain ⟨-, -, replays, late, -⟩ := use_budget Sample.platform_collisionFree first second
  have unbegun : firstDelivered.2.threads 1 = (deliveries 1).program Sample.platform :=
    Pool.threads_play (by decide)
  have consumed : settledOutcome (firstDelivered.2.threads 0) = some (.consumed .valid 1) := by
    decide +kernel
  have kept : settledOutcome (bothDelivered.2.threads 0) = some (.consumed .valid 1) := by
    decide +kernel
  have answered : (settledOutcome (bothDelivered.2.threads 1)).isSome = true := by
    decide +kernel
  obtain ⟨outcome, settled⟩ := Option.isSome_iff_exists.mp answered
  rcases late 1 0 Sample.manager "m-1" (Sample.intent "i-1") (Sample.intent "i-1") outcome rfl
    unbegun ⟨_, _, _, rfl, rfl, done_of_settledOutcome consumed⟩ (done_of_settledOutcome settled) with
    ⟨claim, digestMatches, rfl⟩ | rfl
  · have matched := replays 1 0 Sample.manager "m-1" (Sample.intent "i-1") (Sample.intent "i-1")
      claim digestMatches rfl (done_of_settledOutcome settled)
      ⟨_, _, _, rfl, rfl, done_of_settledOutcome kept⟩
    rw [matched.mpr ⟨rfl, rfl, rfl, rfl⟩] at settled
    exact ⟨claim, settled⟩
  · have known : settledOutcome (bothDelivered.2.threads 1) ≠
        some (.rejected (MandateManager.unknownMandate "m-1")) := by decide +kernel
    exact absurd settled known

/-- One and a half uses. -/
def oneAndAHalf : Double := ⟨3 / 2, 3, -1, by norm_num⟩

/-- Two intents under one mandate. -/
def payments (i : Fin 2) : Call :=
  .consume Sample.manager "m-1" (Sample.intent (if i = 0 then "i-1" else "i-2"))

def bothPaid := Pool.play (sampleOracle (.fin oneAndAHalf))
  (List.replicate 9 0 ++ List.replicate 9 1) (Shared Sample.platform payments .empty)

/-- A budget of one and a half uses is consumed twice. -/
theorem fractional_budget_exceeded :
    Run (StoreAnswers (memoryConsumeStore Sample.platform))
      (Shared Sample.platform payments .empty) bothPaid.1 bothPaid.2 ∧
    VerifiedUses payments bothPaid.1 "m-1" oneAndAHalf ∧
    ∃ keys : Finset JsString,
      (∀ k ∈ keys, ∃ i intent, ConsumedBy payments bothPaid.2 i "m-1" k intent) ∧
      ¬(keys.card : ℚ) ≤ oneAndAHalf.val := by
  refine ⟨Pool.run_play (sampleOracle_agrees _) _ _, ?_, {encode "i-1", encode "i-2"}, ?_, ?_⟩
  · intro i state manager intent member call verified
    obtain ⟨s, answer⟩ := Pool.answer_of_play member
    cases Option.some.inj answer
    rfl
  · have first : settledOutcome (bothPaid.2.threads 0) = some (.consumed .valid 1) := by
      decide +kernel
    have second : settledOutcome (bothPaid.2.threads 1) = some (.consumed .valid 2) := by
      decide +kernel
    intro k member
    rcases Finset.mem_insert.mp member with rfl | other
    · exact ⟨0, _, _, _, _, rfl, rfl, done_of_settledOutcome first⟩
    · rw [Finset.mem_singleton.mp other]
      exact ⟨1, _, _, _, _, rfl, rfl, done_of_settledOutcome second⟩
  · have distinct : encode "i-1" ∉ ({encode "i-2"} : Finset JsString) := by decide
    rw [Finset.card_insert_of_notMem distinct, Finset.card_singleton, oneAndAHalf]
    norm_num

end Sample
end Vaduno.Mandate
