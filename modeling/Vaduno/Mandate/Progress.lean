import Vaduno.Mandate.Consume

/-! How far a call on a mandate manager gets: what it may ask for in each phase, where the answers
lead, and what a settled call says about them. -/
namespace Vaduno.Mandate
open Ecma Enforce Ledger Async Program

/-- A call on one of the managers. -/
inductive Call
  | consume (manager : MandateManager) (mandateId : JsString) (intent : PaymentIntent)
  | settle (mandateId useKey : JsString) (outcome : StoredOutcome)

inductive Progress
  | begun
  | registered (state : MandateState)
  | absent (state : MandateState)
  | found (claim : UseClaim)
  | won (claim : UseClaim)

def Progress.advance (u : Progress) : (op : Op) → op.Answer → Progress
  | .mandateState _, some state => .registered state
  | .getClaim .., .ok (some claim) => .found claim
  | .getClaim .., .ok none =>
    match u with
    | .registered state => .absent state
    | _ => u
  | .claimUse claim _, .ok (.winner _) => .won claim
  | .claimUse .., .ok (.duplicate existing) => .found existing
  | _, _ => u

def isError : Throwing α → Bool
  | .ok _ => false
  | .error _ => true

section Calls
variable (platform : Platform)

def Call.program : Call → Program (Option ConsumeOutcome)
  | consume manager mandateId intent => some <$> manager.consumeOnce platform mandateId intent
  | settle mandateId useKey outcome => do
    MandateManager.settleUse mandateId useKey outcome
    return none

/-- Whether an answer is one that a consuming call throws at: a failed row, clock or store, or a
value that the code in between cannot convert. -/
def Progress.throws (intent : PaymentIntent) (u : Progress) : (op : Op) → op.Answer → Bool
  | .nowIso, text => isError text
  | .append .mandateConsumed _ _, appended => isError appended
  | .append .mandateReplayed _ _, appended => isError appended
  | .mandateState _, some _ => isError (intentDigest platform intent)
  | .getClaim .., looked => isError looked
  | .claimUse _ maxUses, .ok (.exhausted _) => isError maxUses.toText
  | .claimUse .., answered => isError answered
  | .now, nowMs =>
    match u with
    | .absent state => isError (checkConstraints platform state.mandate intent 0 nowMs)
    | _ => false
  | _, _ => false

/-- Where a call stands, and whether it has met something it throws at. -/
structure Standing where
  progress : Progress
  threw : Bool

def Standing.begun : Standing := ⟨.begun, false⟩

/-- What a call may ask for: a claim only for its own pair, with its own digest, after a lookup that
found nothing, under a mandate whose signatures hold. -/
def Call.allowed (call : Call) (u : Progress) : Op → Prop
  | .mandateState mandateId => ∃ manager intent, call = .consume manager mandateId intent
  | .getClaim mandateId useKey => ∃ manager intent state,
    call = .consume manager mandateId intent ∧ useKey = intent.id ∧ u = .registered state
  | .claimUse claim maxUses => ∃ manager intent state,
    call = .consume manager claim.mandateId intent ∧ claim.useKey = intent.id ∧
      intentDigest platform intent = .ok claim.intentDigest ∧ u = .absent state ∧
      manager.signatureProblem state.mandate = none ∧
      maxUses = state.mandate.constraints.maxUses
  | .settleClaim mandateId useKey outcome => call = .settle mandateId useKey outcome
  | .append type _ _ => type = .mandateConsumed ∨ type = .mandateReplayed
  | .now | .nowIso | .enter .consume | .leave .consume | .mirrorUses .. => True
  | _ => False

/-- The intent of a consuming call; a settling call has none, and throws at nothing but its store. -/
def Call.intent : Call → Option PaymentIntent
  | consume _ _ intent => some intent
  | settle .. => none

def Call.advance (call : Call) (φ : Standing) (op : Op) (ans : op.Answer) : Standing where
  progress := φ.progress.advance op ans
  threw := φ.threw || call.intent.any fun intent => φ.progress.throws platform intent op ans

/-- Once a call has met something it throws at, it only leaves its queue. -/
def Call.monitor (call : Call) : Monitor Op.Answer Standing where
  allowed φ op := call.allowed platform φ.progress op ∧ (φ.threw = true → op = .leave .consume)
  step φ op ans φ' := φ' = call.advance platform φ op ans

/-- What a settled call says about how far it got. -/
def Call.Answered (call : Call) (u : Progress) : Throwing (Option ConsumeOutcome) → Prop
  | .ok (some (.consumed _ _)) => ∃ claim manager intent,
    u = .won claim ∧ call = .consume manager claim.mandateId intent ∧ claim.useKey = intent.id ∧
      intentDigest platform intent = .ok claim.intentDigest
  | .ok (some (.replayed claim digestMatches)) => u = .found claim ∧
    ∀ manager mandateId intent, call = .consume manager mandateId intent →
      ∃ digest, intentDigest platform intent = .ok digest ∧
        digestMatches = decide (claim.intentDigest = digest)
  | .ok (some (.rejected check)) => (∃ state, u = .absent state) ∨
    u = .begun ∧ ∃ manager mandateId intent, call = .consume manager mandateId intent ∧
      check = MandateManager.unknownMandate mandateId
  | _ => True

/-- A settled call: its answer fits its progress, and it throws exactly when it met something it
throws at. -/
def Call.Settled (call : Call) (φ : Standing) (r : Throwing (Option ConsumeOutcome)) : Prop :=
  call.Answered platform φ.progress r ∧
    ∀ manager mandateId intent, call = .consume manager mandateId intent → φ.threw = isError r

variable {platform} {manager : MandateManager} {mandateId : JsString} {intent : PaymentIntent}

local instance : Inhabited Progress := ⟨.begun⟩

/-- The call under consideration. -/
abbrev consuming (manager : MandateManager) (mandateId : JsString) (intent : PaymentIntent) : Call :=
  .consume manager mandateId intent

theorem appendIfLedger_meets {post : Standing → Throwing Unit → Prop}
    (row : type = .mandateConsumed ∨ type = .mandateReplayed)
    (answered : ∀ ans, post ⟨u, isError ans⟩ ans) :
    (manager.appendIfLedger type data intent').Meets
      ((consuming manager mandateId intent).monitor platform) post ⟨u, false⟩ := by
  unfold MandateManager.appendIfLedger
  split_ifs
  · rw [meets_orThrow]
    refine ⟨⟨row, nofun⟩, fun ans φ' moved => ?_⟩
    cases moved
    rcases row with rfl | rfl
    · exact answered ans
    · exact answered ans
  · exact answered (.ok ())

theorem replayOutcome_meets (digested : intentDigest platform intent = .ok digest) :
    (manager.replayOutcome mandateId intent claim digest).Meets
      ((consuming manager mandateId intent).monitor platform)
      (fun φ r => (consuming manager mandateId intent).Settled platform φ (r.map some))
      ⟨.found claim, false⟩ := by
  unfold MandateManager.replayOutcome
  rw [meets_bind]
  refine appendIfLedger_meets (.inr rfl) fun ans => ?_
  cases ans with
  | error thrown => exact ⟨trivial, fun _ _ _ _ => rfl⟩
  | ok _ =>
    refine ⟨⟨rfl, fun manager' mandateId' intent' call => ⟨digest, ?_, rfl⟩⟩, fun _ _ _ _ => rfl⟩
    cases call
    exact digested

theorem checkState_meets (state : MandateState) :
    (manager.checkState platform state intent 0).Meets
      ((consuming manager mandateId intent).monitor platform)
      (fun φ r => φ = ⟨.absent state, isError r⟩ ∧ ∀ check, r = .ok check → check.ok = true →
        manager.signatureProblem state.mandate = none) ⟨.absent state, false⟩ := by
  unfold MandateManager.checkState
  split
  · refine ⟨rfl, fun check answered passed => ?_⟩
    cases answered
    cases passed
  · rename_i verified
    split_ifs
    · exact ⟨rfl, fun _ _ _ => verified⟩
    · rw [meets_bind]
      refine ⟨⟨trivial, nofun⟩, fun ans φ' moved => ?_⟩
      cases moved
      exact ⟨rfl, fun _ _ _ => verified⟩

theorem consume_meets (digested : intentDigest platform intent = .ok digest)
    (verified : manager.signatureProblem state.mandate = none) :
    (manager.consume mandateId intent state check digest).Meets
      ((consuming manager mandateId intent).monitor platform)
      (fun φ r => (consuming manager mandateId intent).Settled platform φ (r.map some))
      ⟨.absent state, false⟩ := by
  unfold MandateManager.consume
  rw [meets_bind]
  refine (meets_orThrow _ _).mpr ⟨⟨trivial, nofun⟩, fun iso φ' moved => ?_⟩
  cases moved
  cases iso with
  | error thrown => exact ⟨trivial, fun _ _ _ _ => rfl⟩
  | ok claimedAt =>
    change Meets _ _ (_ >>= _) _
    rw [meets_bind, meets_orThrow]
    refine ⟨⟨⟨manager, intent, state, rfl, rfl, digested, rfl, verified, rfl⟩, nofun⟩,
      fun ans φ' moved => ?_⟩
    cases moved
    rcases ans with thrown | (used | existing | used)
    · exact ⟨trivial, fun _ _ _ _ => rfl⟩
    · change Meets _ _ (ask _ >>= _) _
      rw [meets_bind]
      refine ⟨⟨trivial, nofun⟩, fun _ φ' moved => ?_⟩
      cases moved
      change Meets _ _ (_ >>= _) _
      rw [meets_bind]
      refine appendIfLedger_meets (.inl rfl) fun recorded => ?_
      cases recorded with
      | error thrown => exact ⟨trivial, fun _ _ _ _ => rfl⟩
      | ok _ => exact ⟨⟨_, manager, intent, rfl, rfl, rfl, digested⟩, fun _ _ _ _ => rfl⟩
    · exact replayOutcome_meets digested
    · change Meets _ _ (Async.settled _ >>= _) _
      rw [meets_bind]
      simp only [Call.advance, Call.intent, Progress.advance, Progress.throws, Option.any_some,
        Bool.false_or]
      cases state.mandate.constraints.maxUses.toText with
      | error thrown => exact ⟨trivial, fun _ _ _ _ => rfl⟩
      | ok text => exact ⟨.inl ⟨state, rfl⟩, fun _ _ _ _ => rfl⟩

theorem consumeOnce_meets :
    (manager.consumeOnce platform mandateId intent).Meets
      ((consuming manager mandateId intent).monitor platform)
      (fun φ r => (consuming manager mandateId intent).Settled platform φ (r.map some))
      .begun := by
  unfold MandateManager.consumeOnce
  rw [meets_exclusive]
  refine ⟨⟨trivial, nofun⟩, fun _ φ' moved => ?_⟩
  cases moved
  have left : ∀ φ (r : Throwing ConsumeOutcome),
      (consuming manager mandateId intent).Settled platform φ (r.map some) →
      ((consuming manager mandateId intent).monitor platform).allowed φ (.leave .consume) ∧
        ∀ ans φ', ((consuming manager mandateId intent).monitor platform).step φ (.leave .consume)
          ans φ' → (consuming manager mandateId intent).Settled platform φ' (r.map some) :=
    fun φ r settled => ⟨⟨trivial, fun _ => rfl⟩, fun _ φ' moved => by
      cases moved
      simpa [Call.advance, Progress.advance, Progress.throws, Call.intent] using settled⟩
  refine Meets.mono ?_ left
  rw [meets_bind]
  refine ⟨⟨⟨manager, intent, rfl⟩, nofun⟩, fun ans φ' moved => ?_⟩
  cases moved
  cases ans with
  | none => exact ⟨.inr ⟨rfl, manager, mandateId, intent, rfl, rfl⟩, fun _ _ _ _ => rfl⟩
  | some state =>
    change Meets _ _ (Async.settled _ >>= _) _
    rw [meets_bind]
    simp only [Call.advance, Call.intent, Progress.advance, Progress.throws, Option.any_some,
      Standing.begun, Bool.false_or]
    cases digested : intentDigest platform intent with
    | error thrown => exact ⟨trivial, fun _ _ _ _ => rfl⟩
    | ok digest =>
      change Meets _ _ (_ >>= _) _
      rw [meets_bind, meets_orThrow]
      refine ⟨⟨⟨manager, intent, state, rfl, rfl, rfl⟩, nofun⟩, fun ans φ' moved => ?_⟩
      cases moved
      rcases ans with thrown | _ | prior
      · exact ⟨trivial, fun _ _ _ _ => rfl⟩
      · change Meets _ _ (_ >>= _) _
        refine Meets.bind (checkState_meets state) ?_ ?_
        · rintro φ check ⟨rfl, passes⟩
          split_ifs with passed
          · exact consume_meets digested (passes check rfl passed)
          · exact ⟨.inl ⟨state, rfl⟩, fun _ _ _ _ => rfl⟩
        · rintro φ thrown ⟨rfl, -⟩
          exact ⟨trivial, fun _ _ _ _ => rfl⟩
      · exact replayOutcome_meets digested

theorem Call.program_meets (call : Call) :
    (call.program platform).Meets (call.monitor platform) (call.Settled platform) .begun := by
  cases call with
  | consume manager mandateId intent => exact (meets_map _ _ _).mpr consumeOnce_meets
  | settle mandateId useKey outcome =>
    unfold Call.program MandateManager.settleUse
    rw [meets_bind, meets_orThrow]
    refine ⟨⟨rfl, nofun⟩, fun ans φ' _ => ?_⟩
    cases ans <;> exact ⟨trivial, fun _ _ _ call => by cases call⟩

end Calls

section Advance
variable {u : Progress} {op : Op} {ans : op.Answer} {state : MandateState} {claim : UseClaim}

theorem advance_registered (phase : u.advance op ans = .registered state) :
    u = .registered state ∨
      ∃ m, (⟨op, ans⟩ : Event Op.Answer) = ⟨.mandateState m, some state⟩ := by
  unfold Progress.advance at phase
  split at phase
  · cases phase
    exact .inr ⟨_, rfl⟩
  · cases phase
  · split at phase
    · cases phase
    · exact .inl phase
  · cases phase
  · cases phase
  · exact .inl phase

theorem advance_absent (phase : u.advance op ans = .absent state) :
    u = .absent state ∨ u = .registered state ∧
      ∃ m k, (⟨op, ans⟩ : Event Op.Answer) = ⟨.getClaim m k, .ok none⟩ := by
  unfold Progress.advance at phase
  split at phase
  · cases phase
  · cases phase
  · split at phase
    · cases phase
      exact .inr ⟨rfl, _, _, rfl⟩
    · exact .inl phase
  · cases phase
  · cases phase
  · exact .inl phase

theorem advance_found (phase : u.advance op ans = .found claim) :
    u = .found claim ∨
      (∃ m k, (⟨op, ans⟩ : Event Op.Answer) = ⟨.getClaim m k, .ok (some claim)⟩) ∨
      ∃ c maxUses, (⟨op, ans⟩ : Event Op.Answer) =
        ⟨.claimUse c maxUses, .ok (.duplicate claim)⟩ := by
  unfold Progress.advance at phase
  split at phase
  · cases phase
  · cases phase
    exact .inr (.inl ⟨_, _, rfl⟩)
  · split at phase
    · cases phase
    · exact .inl phase
  · cases phase
  · cases phase
    exact .inr (.inr ⟨_, _, rfl⟩)
  · exact .inl phase

theorem advance_won (phase : u.advance op ans = .won claim) :
    u = .won claim ∨ ∃ maxUses used,
      (⟨op, ans⟩ : Event Op.Answer) = ⟨.claimUse claim maxUses, .ok (.winner used)⟩ := by
  unfold Progress.advance at phase
  split at phase
  · cases phase
  · cases phase
  · split at phase
    · cases phase
    · exact .inl phase
  · cases phase
    exact .inr ⟨_, _, rfl⟩
  · cases phase
  · exact .inl phase

end Advance

end Vaduno.Mandate
