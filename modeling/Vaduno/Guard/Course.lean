import Vaduno.Guard.Phase
import Vaduno.Guard.Gates

/-! The course of a call: in whatever order its answers come and whichever of them are errors, the
pipeline asks for nothing that its phase does not allow, and its result fits the phase it ends in. -/
namespace Vaduno.Guard
open Ecma Enforce Mandate Policy Ledger Async Program

/-- The rail has run on the call's own reservation, and the way to the report met no exception. -/
structure Phase.Ran (φ : Phase) (outcome : Throwing JsValue) : Prop where
  reservation : ∃ request, φ.reservation = .fresh request
  released : φ.released = false
  rail : φ.rail = .ran outcome
  reported : φ.unreported = false

/-- What the phase a call ends in says about its result. -/
def Settled (mode : Mode) (intent : PaymentIntent) (φ : Phase) : Throwing GuardResult → Prop
  | .ok (.executed intentId _ value _) =>
    intentId = intent.id ∧ φ.Ran (.ok value) ∧ φ.committed = true
  | .ok (.failed intentId _ _) => intentId = intent.id ∧ ∃ err, φ.Ran (.error err)
  | .ok (.authorized intentId _ _) =>
    intentId = intent.id ∧ mode = .authorize ∧ φ.holding = true ∧ φ.interrupted = false
  | .ok (.replayed ..) => φ.rail = .idle
  | .ok (.approvalRejected ..) => φ.reservation = .untaken ∧ φ.rail = .idle
  | .ok (.denied ..) | .error _ => (φ.rail = .idle ∨ φ.unreported = true) ∧
    (φ.holding = true → intent.id = [] ∨ φ.interrupted = true)

variable {platform : Platform} {guard : VadunoGuard} {mode : Mode} {intent : PaymentIntent}
  {finalStance : PolicyResult} {φ : Phase}

theorem quiet_before (preliminary : isPreliminary op) :
    (monitor platform guard mode intent).Quiet (.before inside) op := by
  constructor
  · cases op with
    | append type data refs =>
      cases type with
      | executionStarted => cases preliminary
      | mandateConsumed | mandateReplayed => rfl
      | _ => trivial
    | now => exact .inl rfl
    | mandateState mandateId => rfl
    | enter _ | leave _ => cases preliminary
    | _ => trivial
  · intro ans φ' moved
    rw [moved.1]
    cases op with
    | enter _ | leave _ | reserve _ => cases preliminary
    | _ => rfl

theorem quiet_recording (φ : Phase) (recording : isRecording op) :
    (monitor platform guard mode intent).Quiet φ op := by
  unfold isRecording at recording
  split at recording
  · exact ⟨trivial, fun ans φ' moved => moved.1.trans (Phase.advance_quiet rfl rfl rfl)⟩
  · exact ⟨trivial, fun ans φ' moved => moved.1.trans (Phase.advance_quiet rfl rfl rfl)⟩
  · exact ⟨trivial, fun ans φ' moved => moved.1.trans (Phase.advance_quiet rfl rfl rfl)⟩
  · exact ⟨trivial, fun ans φ' moved => moved.1.trans (Phase.advance_quiet rfl rfl rfl)⟩
  · cases recording

/-- What a denial leaves behind. -/
def Unspent (intent : PaymentIntent) (φ : Phase) : Prop :=
  (φ.rail = .idle ∨ φ.unreported = true) ∧
    (φ.holding = true → intent.id = [] ∨ φ.interrupted = true)

theorem Settled.of_refused (refused : Refused r) (unspent : Unspent intent φ) :
    Settled mode intent φ r := by
  unfold Refused at refused
  split at refused
  · exact unspent
  · exact unspent
  · cases refused

theorem refuse_meets {p : Program GuardResult} (asks : p.Asks isDenying Refused)
    (unspent : Unspent intent φ) :
    p.Meets (monitor platform guard mode intent) (Settled mode intent) φ := by
  refine (asks.meets fun _ denying => quiet_recording φ (isRecording_of_isDenying denying)).mono ?_
  rintro φ' r ⟨rfl, refused⟩
  exact .of_refused refused unspent

/-! ### From the reservation on -/

/-- A call that consumes, as the guard sees it. -/
def during (reservation : Reservation) (u : Standing) : Phase :=
  if u.threw then (Phase.of reservation u.progress).fail else .of reservation u.progress

theorem during_reservation : (during reservation u).reservation = reservation := by
  unfold during
  split_ifs <;> rfl

theorem during_use : (during reservation u).use = u.progress := by
  unfold during
  split_ifs <;> rfl

theorem during_rail : (during reservation u).rail = .idle := by
  unfold during
  split_ifs <;> rfl

theorem advance_during (taken : reservation ≠ .untaken)
    (allowed : ((consuming manager mandateId intent).monitor platform).allowed u op) :
    (during reservation u).advance platform intent op ans =
      during reservation ((consuming manager mandateId intent).advance platform u op ans) := by
  rw [Phase.advance_taken (by rwa [during_reservation])]
  obtain ⟨progress, threw⟩ := u
  cases threw with
  | true =>
    obtain rfl := allowed.2 rfl
    rfl
  | false =>
    replace allowed := allowed.1
    have throws : (Phase.of reservation progress).throws platform intent op ans =
        progress.throws platform intent op ans := by
      unfold Phase.throws
      split
      · rcases allowed with row | row <;> cases row
      · cases allowed
      · rfl
    have moved : (Phase.of reservation progress).moved op ans =
        .of reservation (progress.advance op ans) := by
      unfold Phase.moved
      split
      · cases allowed
      · cases allowed
      · cases allowed
      · cases allowed
      · rfl
    change ite ((Phase.of reservation progress).throws platform intent op ans = true) _ _ =
      during reservation ⟨progress.advance op ans, progress.throws platform intent op ans⟩
    change _ = ite _ _ _
    rw [throws, ← moved]
    rfl

theorem mayAsk_during (taken : reservation ≠ .untaken) (managed : guard.mandates = some manager)
    (allowed : ((consuming manager (intent.mandateId.getD []) intent).monitor platform).allowed u
      op) : mayAsk platform guard mode intent (during reservation u) op := by
  replace allowed := allowed.1
  have consumes : ∀ op, (consuming manager (intent.mandateId.getD []) intent).allowed platform
      u.progress op → mayConsume platform guard intent (during reservation u) op :=
    fun op allowed => ⟨by rwa [during_reservation], during_rail, manager, managed, by rwa [during_use]⟩
  cases op with
  | getClaim mandateId useKey => exact consumes _ allowed
  | claimUse claim maxUses => exact consumes _ allowed
  | settleClaim mandateId useKey outcome => cases allowed
  | append type data refs =>
    rcases allowed with row | row
    · cases row
      exact during_rail
    · cases row
      exact during_rail
  | mandateState mandateId => exact during_rail
  | now => exact .inl during_rail
  | enter mutex | leave mutex => cases mutex <;> trivial
  | _ => trivial

/-- The mandate manager's part keeps to its own course, and an exception it meets is one that the
guard's call meets. -/
theorem consumeOnce_course (taken : reservation ≠ .untaken)
    (managed : guard.mandates = some manager) :
    (manager.consumeOnce platform (intent.mandateId.getD []) intent).Meets
      (monitor platform guard mode intent)
      (fun φ r => ∃ u, φ = during reservation u ∧
        (consuming manager (intent.mandateId.getD []) intent).Settled platform u (r.map some))
      (.of reservation .begun) := by
  refine (consumeOnce_meets.simulate (fun u φ => φ = during reservation u) rfl ?_ ?_).mono ?_
  · rintro u φ op rfl allowed
    exact mayAsk_during taken managed allowed
  · rintro u φ op ans φ' rfl allowed moved
    exact ⟨_, rfl, moved.1.trans (advance_during taken allowed)⟩
  · rintro φ r ⟨u, same, settled⟩
    exact ⟨u, same, settled⟩

/-- What the manager answered, and the phase it left the call in. -/
theorem consumeStage_bind {f : ConsumeOutcome → Program GuardResult}
    (taken : reservation ≠ .untaken) (managed : guard.mandates = some manager)
    (consumed : ∀ claim check use, claim.mandateId = intent.mandateId.getD [] →
      claim.useKey = intent.id → (f (.consumed check use)).Meets
        (monitor platform guard mode intent) (Settled mode intent) (.of reservation (.won claim)))
    (replayed : ∀ claim digestMatches, (f (.replayed claim digestMatches)).Meets
      (monitor platform guard mode intent) (Settled mode intent) (.of reservation (.found claim)))
    (rejected : ∀ u check, (f (.rejected check)).Meets
      (monitor platform guard mode intent) (Settled mode intent) (.of reservation u)) :
    (manager.consumeOnce platform (intent.mandateId.getD []) intent >>= f).Meets
      (monitor platform guard mode intent) (Settled mode intent) (.of reservation .begun) := by
  refine Meets.bind (consumeOnce_course taken managed) ?_ ?_
  · rintro φ outcome ⟨⟨u, threw⟩, rfl, answered, same⟩
    obtain rfl : threw = false := same manager _ intent rfl
    cases outcome with
    | consumed check use =>
      obtain ⟨claim, _, _, rfl, call, key, -⟩ := answered
      obtain ⟨-, mandates, rfl⟩ := Call.consume.inj call
      exact consumed claim check use mandates.symm key
    | replayed claim digestMatches =>
      obtain ⟨rfl, -⟩ := answered
      exact replayed claim digestMatches
    | rejected check => exact rejected u check
  · rintro φ thrown ⟨⟨u, threw⟩, rfl, -, same⟩
    obtain rfl : threw = true := same manager _ intent rfl
    refine ⟨.inl rfl, fun holding => .inr ?_⟩
    cases reservation <;> exact holding

/-- Nothing has run, and what is still held is held for a reason. -/
def Idle (intent : PaymentIntent) (φ : Phase) : Prop :=
  φ.rail = .idle ∧ (φ.holding = true → intent.id = [] ∨ φ.interrupted = true)

theorem Idle.unspent (idle : Idle intent φ) : Unspent intent φ := ⟨.inl idle.1, idle.2⟩

/-- The mandate whose use is to be settled is the one whose use was won. -/
def Consumed (intent : PaymentIntent) (use : Progress) (consumed : Option JsString) : Prop :=
  ∀ mandateId ∈ consumed, ∃ claim, use = .won claim ∧ mandateId = claim.mandateId ∧
    intent.id = claim.useKey

theorem nowIso_meets {post : Phase → Throwing JsString → Prop} (taken : φ.reservation ≠ .untaken)
    (value : ∀ text, post φ (.ok text)) (thrown : ∀ e, post φ.fail (.error e)) :
    nowIso.Meets (monitor platform guard mode intent) post φ := by
  unfold nowIso
  rw [meets_orThrow]
  refine ⟨trivial, fun text φ' moved => ?_⟩
  rw [moved.1, Phase.advance_taken taken]
  cases text with
  | ok text => exact value text
  | error e => exact thrown e

theorem settleBestEffort_meets (won : Consumed intent φ.use (some mandateId)) :
    (guard.settleBestEffort mandateId intent.id outcome).Meets (monitor platform guard mode intent)
      (fun φ' r => φ' = φ ∧ r = .ok ()) φ := by
  obtain ⟨claim, use, same, key⟩ := won mandateId rfl
  have quiet : (monitor platform guard mode intent).Quiet φ
      (.settleClaim mandateId intent.id outcome) :=
    ⟨⟨claim, use, same, key⟩, fun ans φ' moved => moved.1.trans (Phase.advance_quiet rfl rfl rfl)⟩
  unfold VadunoGuard.settleBestEffort
  cases guard.mandates with
  | none => exact ⟨rfl, rfl⟩
  | some manager =>
    unfold MandateManager.settleUse
    refine (meets_tryCatch _ _ _).mpr ((meets_orThrow _ _).mpr (quiet.perform fun ans => ?_))
    cases ans <;> exact ⟨rfl, rfl⟩

theorem fail_idle (idle : φ.rail = .idle) :
    φ.fail = { φ with interrupted := φ.interrupted || φ.holding } := by
  unfold Phase.fail
  rw [idle]

theorem Idle.fail (idle : Idle intent φ) : Idle intent φ.fail := by
  rw [fail_idle idle.1]
  refine ⟨idle.1, fun holding => .inr ?_⟩
  have held : φ.holding = true := holding
  simp [held]

theorem settleConsumed_meets (taken : φ.reservation ≠ .untaken)
    (won : Consumed intent φ.use consumed) :
    (guard.settleConsumed consumed intent outcome).Meets (monitor platform guard mode intent)
      (fun φ' r => φ' = φ ∧ r = .ok () ∨ φ' = φ.fail ∧ ∃ thrown, r = .error thrown) φ := by
  unfold VadunoGuard.settleConsumed
  cases consumed with
  | none => exact .inl ⟨rfl, rfl⟩
  | some mandateId =>
    refine (meets_bind _ _ _).mpr (nowIso_meets taken (fun text => ?_) fun thrown => ?_)
    · exact (settleBestEffort_meets won).mono fun _ _ => .inl
    · exact .inr ⟨rfl, thrown, rfl⟩

/-- A reservation is given back by the call that took it, unless its id is empty. -/
def Ours (intent : PaymentIntent) (ours : Option JsString) : Reservation → Prop
  | .fresh _ => ours = some intent.id
  | _ => ours = none

theorem releaseIfOurs_meets (owned : Ours intent ours reservation) :
    (VadunoGuard.releaseIfOurs ours).Meets (monitor platform guard mode intent)
      (fun φ r => r = .ok () ∧ Idle intent φ ∧ φ.reservation = reservation ∧ φ.use = u)
      (.of reservation u) := by
  unfold VadunoGuard.releaseIfOurs
  split_ifs with given
  · cases reservation with
    | fresh request =>
      obtain rfl : ours = some intent.id := owned
      have named : intent.id ≠ [] := by simpa [truthy] using given
      unfold releaseBestEffort
      refine (meets_tryCatch _ _ _).mpr ((meets_orThrow _ _).mpr
        ⟨⟨rfl, rfl, rfl, rfl, named⟩, fun ans φ' moved => ?_⟩)
      obtain rfl := moved.1
      cases ans with
      | ok _ => exact ⟨rfl, ⟨rfl, fun holding => by cases holding⟩, rfl, rfl⟩
      | error _ =>
        refine ⟨trivial, fun _ φ' moved => ?_⟩
        obtain rfl := moved.1
        exact ⟨rfl, ⟨rfl, fun holding => by cases holding⟩, rfl, rfl⟩
    | _ =>
      obtain rfl : ours = none := owned
      cases given
  · refine ⟨rfl, ⟨rfl, fun holding => .inl ?_⟩, rfl, rfl⟩
    cases reservation with
    | fresh request =>
      obtain rfl : ours = some intent.id := owned
      simpa [truthy] using given
    | _ => cases holding

/-! ### Once the rail has run -/

/-- The phase after the rail, while nothing has gone wrong on the way to the report. -/
def after (request : ReserveRequest) (use : Progress) (outcome : Throwing JsValue)
    (committed : Bool) : Phase :=
  ⟨true, .fresh request, false, committed, use, .ran outcome, false, false⟩

theorem after_fail_unspent : Unspent intent (after request use outcome committed).fail :=
  ⟨.inr rfl, fun holding => by cases holding⟩

theorem appendResult_meets : (appendBestEffort .executionResult data refs).Meets
    (monitor platform guard mode intent) (fun φ' r => φ' = φ ∧ r = .ok ()) φ :=
  (appendBestEffort_asks trivial trivial).meets fun _ => quiet_recording φ

theorem recordFailure_meets (won : Consumed intent use consumed) (text : errMsg err = .ok message) :
    (guard.recordFailure intent finalStance recorded consumed err).Meets
      (monitor platform guard mode intent) (Settled mode intent)
      (after request use (.error err) false) := by
  unfold VadunoGuard.recordFailure
  rw [text, meets_bind]
  refine Meets.bind appendResult_meets ?_ ?_
  · rintro φ _ ⟨rfl, -⟩
    refine Meets.bind (settleConsumed_meets (fun untaken => by cases untaken) won) ?_ ?_
    · rintro φ _ (⟨rfl, -⟩ | ⟨-, thrown, failed⟩)
      · exact ⟨rfl, err, ⟨request, rfl⟩, rfl, rfl, rfl⟩
      · cases failed
    · rintro φ thrown (⟨-, failed⟩ | ⟨rfl, -⟩)
      · cases failed
      · exact after_fail_unspent
  · rintro φ thrown ⟨-, failed⟩
    cases failed

/-- What the executor threw cannot even be named. -/
theorem recordFailure_lost (lost : errMsg err = .error thrown) :
    (guard.recordFailure intent finalStance recorded consumed err).Meets
      (monitor platform guard mode intent) (Settled mode intent)
      (after request use (.error err) false).fail := by
  unfold VadunoGuard.recordFailure
  rw [lost]
  exact after_fail_unspent

theorem reportExecuted_meets :
    (VadunoGuard.reportExecuted intent finalStance recorded value).Meets
      (monitor platform guard mode intent) (Settled mode intent)
      (after request use (.ok value) true) := by
  have settled : ∀ degraded, Settled mode intent (after request use (.ok value) true)
      (.ok (.executed intent.id finalStance value degraded)) := fun degraded =>
    ⟨rfl, ⟨⟨request, rfl⟩, rfl, rfl, rfl⟩, rfl⟩
  unfold VadunoGuard.reportExecuted
  rw [meets_bind]
  refine Monitor.Quiet.perform (quiet_recording _ ?_) fun appended => ?_
  · trivial
  · cases appended with
    | ok _ => exact settled false
    | error _ =>
      change Meets _ _ (_ >>= _) _
      rw [meets_bind]
      refine Monitor.Quiet.perform (quiet_recording _ ?_) fun _ => settled true
      trivial

theorem commitBestEffort_meets :
    (commitBestEffort intent.id).Meets (monitor platform guard mode intent)
      (fun φ r => φ = after request use (.ok value) true ∧ r = .ok ())
      (after request use (.ok value) false) := by
  unfold commitBestEffort
  refine (meets_tryCatch _ _ _).mpr ((meets_orThrow _ _).mpr
    ⟨⟨rfl, rfl, rfl, ⟨request, rfl⟩, value, rfl⟩, fun ans φ' moved => ?_⟩)
  obtain rfl := moved.1
  cases ans with
  | ok _ => exact ⟨rfl, rfl⟩
  | error _ =>
    refine Monitor.Quiet.perform (quiet_recording _ ?_) fun _ => ⟨rfl, rfl⟩
    trivial

theorem recordSuccess_meets (won : Consumed intent use consumed)
    (passed : ∀ state, use ≠ .absent state) :
    (guard.recordSuccess intent finalStance recorded intent.id consumed value).Meets
      (monitor platform guard mode intent) (Settled mode intent)
      (after request use (.ok value) false) := by
  have unheld : ∀ nowMs, (after request use (.ok value) true).advance platform intent .now nowMs =
      after request use (.ok value) true := fun nowMs => by
    cases use <;> first | exact absurd rfl (passed _) | rfl
  unfold VadunoGuard.recordSuccess
  have settles : (do
      guard.settleConsumed consumed intent fun settledAt => ⟨.executed, settledAt, none⟩
      VadunoGuard.reportExecuted intent finalStance recorded value : Program GuardResult).Meets
      (monitor platform guard mode intent) (Settled mode intent)
      (after request use (.ok value) true) := by
    refine Meets.bind (settleConsumed_meets (fun untaken => by cases untaken) won) ?_ ?_
    · rintro φ _ (⟨rfl, -⟩ | ⟨-, thrown, failed⟩)
      · exact reportExecuted_meets
      · cases failed
    · rintro φ thrown (⟨-, failed⟩ | ⟨rfl, -⟩)
      · cases failed
      · exact after_fail_unspent
  refine Meets.bind commitBestEffort_meets ?_ ?_
  · rintro φ _ ⟨rfl, -⟩
    split_ifs
    · rw [meets_bind]
      refine ⟨.inr passed, fun nowMs φ' moved => ?_⟩
      obtain rfl := moved.1.trans (unheld nowMs)
      change Meets _ _ (_ >>= _) _
      rw [meets_bind]
      refine ⟨trivial, fun _ φ' moved => ?_⟩
      obtain rfl := moved.1
      exact settles
    · exact settles
  · rintro φ thrown ⟨-, failed⟩
    cases failed

theorem executeStage_meets (won : Consumed intent use consumed)
    (passed : ∀ state, use ≠ .absent state) :
    (guard.executeStage intent finalStance recorded intent.id consumed).Meets
      (monitor platform guard .execute intent) (Settled .execute intent)
      (.of (.fresh request) use) := by
  unfold VadunoGuard.executeStage append
  refine (meets_bind _ _ _).mpr ((meets_orThrow _ _).mpr ⟨rfl, fun appended φ' moved => ?_⟩)
  obtain rfl := moved.1
  cases appended with
  | error thrown => exact ⟨.inl rfl, fun _ => .inr rfl⟩
  | ok _ =>
    change Meets _ _ (_ >>= _) _
    rw [meets_bind]
    refine ⟨⟨rfl, rfl, rfl, rfl, rfl⟩, fun outcome φ' moved => ?_⟩
    obtain rfl := moved.1
    cases outcome with
    | ok value => exact recordSuccess_meets won passed
    | error err =>
      have ran : (Phase.of (.fresh request) use).advance platform intent (.runExecutor intent)
          (.error err) = if isError (errMsg err) then (after request use (.error err) false).fail
            else after request use (.error err) false := rfl
      change Meets _ _ _ ((Phase.of (.fresh request) use).advance platform intent
        (.runExecutor intent) (.error err))
      rw [ran]
      cases text : errMsg err with
      | ok message => exact recordFailure_meets won text
      | error thrown => exact recordFailure_lost text

/-- The last look at the freeze, and what comes after it. -/
theorem launchStage_meets (won : Consumed intent use consumed)
    (passed : ∀ state, use ≠ .absent state) :
    (guard.launchStage platform mode intent finalStance intent.id (some intent.id) consumed).Meets
      (monitor platform guard mode intent) (Settled mode intent) (.of (.fresh request) use) := by
  unfold VadunoGuard.launchStage
  rw [meets_bind]
  refine ⟨trivial, fun frozen φ' moved => ?_⟩
  obtain rfl := moved.1
  cases frozen with
  | some reason =>
    refine Meets.bind (releaseIfOurs_meets rfl) ?_ ?_
    · rintro φ _ ⟨-, idle, fresh, rfl⟩
      have taken : φ.reservation ≠ .untaken := fun untaken => by
        rw [fresh] at untaken
        cases untaken
      refine Meets.bind (settleConsumed_meets taken won) ?_ ?_
      · rintro φ' _ (⟨rfl, -⟩ | ⟨-, thrown, failed⟩)
        · exact refuse_meets (denyAudited_asks.mono fun _ _ => Refused.of_denied) idle.unspent
        · cases failed
      · rintro φ' thrown (⟨-, failed⟩ | ⟨rfl, -⟩)
        · cases failed
        · exact idle.fail.unspent
    · rintro φ thrown ⟨failed, -⟩
      cases failed
  | none =>
    cases mode with
    | execute => exact executeStage_meets won passed
    | authorize =>
      unfold append
      refine (meets_bind _ _ _).mpr ((meets_orThrow _ _).mpr ⟨rfl, fun appended φ' moved => ?_⟩)
      obtain rfl := moved.1
      cases appended with
      | ok _ => exact ⟨rfl, rfl, rfl, rfl⟩
      | error _ => exact ⟨.inl rfl, fun _ => .inr rfl⟩

/-- Refusing after the reservation has been given back. -/
theorem releaseAndRefuse_meets {p : Program GuardResult} (owned : Ours intent ours reservation)
    (rest : ∀ φ, Idle intent φ → p.Meets (monitor platform guard mode intent)
      (Settled mode intent) φ) :
    (do VadunoGuard.releaseIfOurs ours; p : Program GuardResult).Meets
      (monitor platform guard mode intent) (Settled mode intent) (.of reservation use) := by
  refine Meets.bind (releaseIfOurs_meets owned) ?_ ?_
  · rintro φ _ ⟨-, idle, -⟩
    exact rest φ idle
  · rintro φ thrown ⟨failed, -⟩
    cases failed

theorem consumeStage_meets (own : replayed = false → ∃ request, reservation = .fresh request)
    (other : replayed = true → (guard.requireMandate || truthy intent.mandateId) = true ∧
      ∃ state, reservation = .replayed state)
    (managed : Managed guard intent) : (guard.consumeStage platform mode intent finalStance intent.id replayed).Meets
      (monitor platform guard mode intent) (Settled mode intent) (.of reservation .begun) := by
  have owned : Ours intent (if replayed then none else some intent.id) reservation := by
    cases replayed with
    | false => obtain ⟨request, rfl⟩ := own rfl; rfl
    | true => obtain ⟨-, state, rfl⟩ := other rfl; rfl
  have taken : reservation ≠ .untaken := by
    rintro rfl
    cases replayed with
    | false => obtain ⟨request, fresh⟩ := own rfl; cases fresh
    | true => obtain ⟨-, state, found⟩ := other rfl; cases found
  unfold VadunoGuard.consumeStage
  generalize (if replayed then none else some intent.id) = ours at owned ⊢
  by_cases mandated : (guard.requireMandate || truthy intent.mandateId) = true
  · obtain ⟨manager, known⟩ := Option.isSome_iff_exists.mp (managed mandated)
    simp only [if_pos mandated, known]
    refine consumeStage_bind taken known ?_ ?_ ?_
    · intro claim check use mandate key
      cases replayed with
      | false =>
        obtain ⟨request, rfl⟩ := own rfl
        obtain rfl : ours = some intent.id := owned
        refine launchStage_meets ?_ fun _ same => by cases same
        rintro _ ⟨⟩
        exact ⟨claim, rfl, mandate.symm, key.symm⟩
      | true =>
        obtain ⟨-, state, rfl⟩ := other rfl
        refine Meets.bind (settleConsumed_meets taken ?_) ?_ ?_
        · rintro _ ⟨⟩
          exact ⟨claim, rfl, mandate.symm, key.symm⟩
        · rintro φ' _ (⟨rfl, -⟩ | ⟨-, thrown, failed⟩)
          · exact refuse_meets (denyAudited_asks.mono fun _ _ => Refused.of_denied)
              ⟨.inl rfl, fun holding => by cases holding⟩
          · cases failed
        · rintro φ' thrown (⟨-, failed⟩ | ⟨rfl, -⟩)
          · cases failed
          · exact ⟨.inl rfl, fun holding => by cases holding⟩
    · intro claim digestMatches
      refine releaseAndRefuse_meets owned fun φ idle => ?_
      split_ifs
      · exact idle.1
      · exact refuse_meets (denyInternal_asks _) idle.unspent
    · intro u check
      exact releaseAndRefuse_meets owned fun φ idle =>
        refuse_meets (denyInternal_asks _) idle.unspent
  · simp only [if_neg mandated]
    cases replayed with
    | false =>
      obtain ⟨request, rfl⟩ := own rfl
      obtain rfl : ours = some intent.id := owned
      refine launchStage_meets ?_ fun _ same => by cases same
      rintro _ ⟨⟩
    | true => exact absurd (other rfl).1 mandated

/-! ### Up to the reservation -/

theorem before_unspent : Unspent intent (.before inside) := ⟨.inl rfl, fun holding => by cases holding⟩

theorem outside_before :
    Outside (monitor platform guard mode intent) (Settled mode intent) (.before inside) where
  quiet _ deciding := quiet_before (isPreliminary_of_isDeciding deciding)
  refused _ refused := .of_refused refused before_unspent
  rejected _ _ := ⟨rfl, rfl⟩

theorem replayedResult_meets :
    (VadunoGuard.replayedResult intent state).Meets (monitor platform guard mode intent)
      (Settled mode intent) (.of (.replayed reservationState) .begun) := by
  unfold VadunoGuard.replayedResult
  have idle : Idle intent (.of (.replayed reservationState) .begun) :=
    ⟨rfl, fun holding => by cases holding⟩
  rcases state with _ | _ | _
  · exact idle.1
  · exact idle.1
  · refine (meets_bind _ _ _).mpr (nowIso_meets (fun untaken => by cases untaken) (fun _ => idle.1)
      fun thrown => idle.fail.unspent)

theorem reserveStage_meets (managed : Managed guard intent) :
    (guard.reserveStage platform mode intent finalStance).Meets
    (monitor platform guard mode intent) (Settled mode intent) (.before true) := by
  unfold VadunoGuard.reserveStage
  refine outside_before.bind (ask_asks trivial) fun policy => outside_before.bind (ask_asks trivial) fun nowMs => ?_
  rw [meets_bind, meets_orThrow]
  refine ⟨⟨rfl, rfl, rfl, rfl⟩, fun answered φ' moved => ?_⟩
  obtain ⟨rfl, own⟩ := moved
  rcases answered with thrown | (⟨reservationId, replayed, state⟩ | violation)
  · exact ⟨.inl rfl, fun holding => by cases holding⟩
  · obtain rfl : reservationId = intent.id := own
    change Meets _ _ (ite _ _ _) _
    cases replayed with
    | false =>
      rw [if_neg (by simp)]
      exact consumeStage_meets (fun _ => ⟨_, rfl⟩) (fun same => by cases same) managed
    | true =>
      split_ifs with unmandated
      · exact replayedResult_meets
      · refine consumeStage_meets (fun same => by cases same) (fun _ => ⟨?_, _, rfl⟩) managed
        rw [Bool.true_and, Bool.not_eq_true, Bool.not_eq_false'] at unmandated
        exact unmandated
  · exact refuse_meets (denyInternal_asks _) ⟨.inl rfl, fun holding => by cases holding⟩

theorem revocationStage_meets (managed : Managed guard intent) :
    (guard.revocationStage platform mode intent finalStance).Meets
    (monitor platform guard mode intent) (Settled mode intent) (.before true) := by
  have denies : ∀ code message, (do
      denyRecorded intent (internalDeny (← ask .policy) code message) :
        Program GuardResult).Asks isDenying Refused := fun code message => denyInternal_asks _
  unfold VadunoGuard.revocationStage append
  refine outside_before.bind (orThrow_asks (ask_asks trivial)) fun _ => ?_
  split_ifs
  · refine outside_before.bind (ask_asks trivial) fun checked => ?_
    cases checked with
    | ok verdict =>
      cases verdict with
      | allowed => exact reserveStage_meets managed
      | refused code message => exact outside_before.deny (denies code message)
    | error err => exact outside_before.bind (settled_asks _) fun text => outside_before.deny (denies _ _)
  · exact reserveStage_meets managed

theorem commit_meets (managed : Managed guard intent) :
    (guard.commit platform mode intent approved).Meets
      (monitor platform guard mode intent) (Settled mode intent) (.before true) := by
  unfold VadunoGuard.commit
  refine outside_before.bind (ask_asks trivial) fun frozen => ?_
  cases frozen with
  | some reason => exact outside_before.deny_audited
  | none =>
    refine outside_before.bind (ask_asks trivial) fun policy => outside_before.bind evaluatePolicy_asks fun result => ?_
    split
    · exact outside_before.deny denyRecorded_asks
    · exact outside_before.deny denyRecorded_asks
    · split
      · exact revocationStage_meets managed
      · refine outside_before.bind VadunoGuard.scoreRisk_asks fun scored => ?_
        cases scored with
        | unscorable message => exact outside_before.deny (denyInternal_asks _)
        | scored assessment =>
          change Meets _ _ (ite _ _ _) _
          split_ifs
          · exact outside_before.refuse VadunoGuard.denyRiskHigh_asks
          · exact outside_before.deny denyRecorded_asks
          · exact revocationStage_meets managed

/-- Leaving the critical section changes nothing that a result depends on. -/
theorem Settled.leave (settled : Settled mode intent φ r)
    (left : φ' = { φ with inside := false }) : Settled mode intent φ' r := by
  subst left
  have leave : ∀ {outcome}, φ.Ran outcome → Phase.Ran { φ with inside := false } outcome :=
    fun ran => ⟨ran.reservation, ran.released, ran.rail, ran.reported⟩
  cases r with
  | error thrown => exact settled
  | ok result =>
    cases result with
    | executed => exact ⟨settled.1, leave settled.2.1, settled.2.2⟩
    | failed =>
      obtain ⟨same, err, ran⟩ := settled
      exact ⟨same, err, leave ran⟩
    | _ => exact settled

theorem exclusive_meets {p : Program GuardResult}
    (meets : p.Meets (monitor platform guard mode intent) (Settled mode intent) (.before true)) :
    (exclusive .critical p).Meets (monitor platform guard mode intent) (Settled mode intent)
      (.before false) := by
  rw [meets_exclusive]
  refine ⟨⟨rfl, rfl⟩, fun _ φ' moved => ?_⟩
  obtain rfl := moved.1
  refine meets.mono fun φ r settled => ⟨trivial, fun ans φ' moved => settled.leave ?_⟩
  rw [moved.1]
  by_cases untaken : φ.reservation = .untaken
  · exact Phase.advance_untaken untaken
  · exact Phase.advance_taken untaken

/-- The payment a call is about, where it got as far as being an intent. -/
def Intake.Pays (intake : Intake) (intent : PaymentIntent) : Prop :=
  ∀ received payment, intake = .sound received payment → payment = intent

/-- Whatever is submitted and however the outside answers, a call keeps to the phases. -/
theorem run_meets (pays : intake.Pays intent) :
    (guard.run platform mode intake).Meets (monitor platform guard mode intent)
      (Settled mode intent) (.before false) := by
  refine outside_before.run (fun _ approving => quiet_before (isPreliminary_of_isApproving approving)) ?_ ?_
  · intro received payment sound approved managed
    obtain rfl := pays received payment sound
    exact exclusive_meets (commit_meets managed)
  · exact fun φ' e unspent p asks => refuse_meets asks unspent

end Vaduno.Guard
