import Vaduno.Runtime

/-! One consume store shared by any number of callers: what an answered operation does to it. -/
namespace Vaduno.Enforce
open Ecma

variable {platform : Platform} {σ ι : Type} (store : ConsumeStore platform σ)

/-- An operation that answers `.ok result` and moves `s` to `moved`, or fails, applied or not. -/
def Fallibly (s moved : σ) (result ans : Throwing α) (s' : σ) : Prop :=
  (ans = result ∧ s' = moved) ∨ ((∃ thrown, ans = .error thrown) ∧ (s' = s ∨ s' = moved))

/-- How the store answers. Nothing is assumed about the answers to operations on anything else. -/
def StoreAnswers : Async.Answers Op.Answer σ ι
  | s, _, .claimUse c maxUses, ans, s' =>
    Fallibly s (store.claim s c maxUses).2 (store.claim s c maxUses).1 ans s'
  | s, _, .settleClaim mandateId useKey outcome, ans, s' =>
    Fallibly s (store.settle s mandateId useKey outcome) (.ok ()) ans s'
  | s, _, .getClaim mandateId useKey, ans, s' =>
    Fallibly s s (.ok (store.get s mandateId useKey)) ans s'
  | s, _, _, _, s' => s' = s

/-- What an operation does to the store, however it was answered. -/
inductive StoreEffect (s : σ) : Op → σ → Prop
  | none : StoreEffect s op s
  | claim (claims : Claims platform store.get store.countClaims s c maxUses result s') :
      StoreEffect s (.claimUse c maxUses) s'
  | settle : StoreEffect s (.settleClaim mandateId useKey outcome)
      (store.settle s mandateId useKey outcome)

variable {store}

theorem StoreAnswers.effect {i : ι} {op : Op} {ans : op.Answer}
    (answered : StoreAnswers store s i op ans s') : StoreEffect store s op s' := by
  unfold StoreAnswers at answered
  split at answered
  · rcases answered with ⟨-, rfl⟩ | ⟨-, rfl | rfl⟩
    · exact .claim (store.claims _ _ _)
    · exact .none
    · exact .claim (store.claims _ _ _)
  · rcases answered with ⟨-, rfl⟩ | ⟨-, rfl | rfl⟩
    · exact .settle
    · exact .none
    · exact .settle
  · rcases answered with ⟨-, rfl⟩ | ⟨-, rfl | rfl⟩ <;> exact .none
  · subst answered
    exact .none

/-- An answered claim says what the store did. -/
theorem StoreAnswers.claims {i : ι} {result : ClaimResult}
    (answered : StoreAnswers store s i (.claimUse c maxUses) (.ok result) s') :
    Claims platform store.get store.countClaims s c maxUses (.ok result) s' := by
  rcases answered with ⟨claimed, rfl⟩ | ⟨⟨_, failed⟩, -⟩
  · rw [claimed]
    exact store.claims s c maxUses
  · cases failed

/-- An answered lookup reads the store. -/
theorem StoreAnswers.get {i : ι} {found : Option UseClaim}
    (answered : StoreAnswers store s i (.getClaim mandateId useKey) (.ok found) s') :
    store.get s mandateId useKey = found ∧ s' = s := by
  rcases answered with ⟨read, rfl⟩ | ⟨⟨_, failed⟩, -⟩
  · exact ⟨(Except.ok.inj read).symm, rfl⟩
  · cases failed

theorem UseClaim.settle_intentDigest (outcome : StoredOutcome) (c : UseClaim) :
    (c.settle outcome).intentDigest = c.intentDigest := by
  unfold UseClaim.settle
  split_ifs <;> rfl

theorem UseClaim.settle_of_settled (outcome : StoredOutcome) {c : UseClaim}
    (settled : c.status = .settled) : c.settle outcome = c :=
  if_pos settled

/-- A claim that is held stays held, with its digest, and with its outcome once it has one. -/
theorem StoreEffect.get_persists (effect : StoreEffect store s op s')
    (held : store.get s mandateId useKey = some c) :
    ∃ c', store.get s' mandateId useKey = some c' ∧ c'.intentDigest = c.intentDigest ∧
      (c.status = .settled → c' = c) := by
  cases effect with
  | none => exact ⟨c, held, rfl, fun _ => rfl⟩
  | @claim claimed _ _ _ claims =>
    cases claims with
    | winner fresh room now counted =>
      have other : ¬(mandateId = claimed.mandateId ∧ useKey = claimed.useKey) := by
        rintro ⟨rfl, rfl⟩
        rw [fresh] at held
        cases held
      rw [now, if_neg other]
      exact ⟨c, held, rfl, fun _ => rfl⟩
    | _ => exact ⟨c, held, rfl, fun _ => rfl⟩
  | @settle m k outcome =>
    rw [store.settles]
    split_ifs with same
    · rw [held]
      exact ⟨c.settle outcome, rfl, c.settle_intentDigest outcome, c.settle_of_settled outcome⟩
    · exact ⟨c, held, rfl, fun _ => rfl⟩

/-- The claims against a mandate only grow, and only through a claim that found room. -/
theorem StoreEffect.count_cases (effect : StoreEffect store s op s') (mandateId : JsString) :
    store.countClaims s' mandateId = store.countClaims s mandateId ∨
      ∃ c maxUses, op = .claimUse c maxUses ∧ c.mandateId = mandateId ∧
        platform.reaches (store.countClaims s mandateId : ℤ) maxUses = .ok false ∧
        store.countClaims s' mandateId = store.countClaims s mandateId + 1 := by
  cases effect with
  | none => exact .inl rfl
  | @claim claimed maxUses _ _ claims =>
    cases claims with
    | winner fresh room now counted =>
      by_cases same : mandateId = claimed.mandateId
      · subst same
        exact .inr ⟨claimed, maxUses, rfl, rfl, room, by rw [counted, if_pos rfl]⟩
      · exact .inl (by rw [counted, if_neg same, Nat.add_zero])
    | _ => exact .inl rfl
  | settle => exact .inl (store.settle_counts _ _ _ _ _)

end Vaduno.Enforce
