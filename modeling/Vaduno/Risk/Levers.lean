import Vaduno.Risk.Scorecard
import Vaduno.Sample

/-! What an intent can do about its own score. Every signal only adds, so that a larger amount never lowers
the score; but a merchant without history silences the signal about that merchant's typical amount, which
may weigh more than the one that the merchant then fires. -/
namespace Vaduno.Risk
open Ecma Ledger Policy Guard Enforce

/-! ### Exact scores -/

/-- A running sum of amounts follows their exact sum. -/
theorem foldl_add_tracks {weights : List Number} (amounts : ∀ w ∈ weights, IsAmount w) :
    (weights.foldl (· + ·) 0).Tracks (weights.map Number.toInt).sum ∧ 0 ≤ (weights.map Number.toInt).sum := by
  induction weights using List.reverseRecOn with
  | nil => exact ⟨Number.tracks_zero, le_rfl⟩
  | append_singleton earlier w ih =>
    rw [List.forall_mem_append] at amounts
    obtain ⟨tracks, nonneg⟩ := ih amounts.1
    have amount := amounts.2 w List.mem_cons_self
    have added := tracks.add nonneg amount.toInt_nonneg amount.toInt_lt
    rw [← amount.eq_toInt] at added
    rw [List.foldl_append, List.map_append, List.sum_append]
    have total : (List.map Number.toInt [w]).sum = w.toInt := by simp
    rw [total]
    exact ⟨added, Int.add_nonneg nonneg amount.toInt_nonneg⟩

/-- The weights of signals, summed exactly. -/
def weightSum (fired : List FiredSignal) : ℤ := (fired.map fun f => f.weight.toInt).sum

theorem weightSum_append (l l' : List FiredSignal) : weightSum (l ++ l') = weightSum l + weightSum l' := by
  rw [weightSum, List.map_append, List.sum_append]
  rfl

/-- A sum that stays safe is the score. -/
theorem scoreOf_eq {fired : List FiredSignal} (amounts : ∀ f ∈ fired, IsAmount f.weight)
    (small : weightSum fired < 2 ^ 53) :
    RiskScorecard.scoreOf fired = (weightSum fired : ℤ) ∧ 0 ≤ weightSum fired := by
  have weights : ∀ w ∈ fired.map (·.weight), IsAmount w := by
    intro w member
    obtain ⟨f, listed, rfl⟩ := List.mem_map.mp member
    exact amounts f listed
  obtain ⟨tracks, nonneg⟩ := foldl_add_tracks weights
  rw [List.foldl_map, List.map_map] at tracks
  rw [List.map_map] at nonneg
  exact ⟨tracks.exactly small, nonneg⟩

/-! ### What a signal adds -/

/-- The exact weight of a rule, zero where it is not configured. -/
def weightOf (rule : Option Number) : ℤ := (rule.map Number.toInt).getD 0

/-- What one rule contributes: nothing, or one signal of its weight. -/
def Part (rule : Option Number) (fired : List FiredSignal) : Prop :=
  fired = [] ∨ ∃ f, fired = [f] ∧ rule = some f.weight

theorem part_weight {fired : List FiredSignal} (part : Part rule fired) (amount : ∀ w ∈ rule, IsAmount w) :
    (∀ f ∈ fired, IsAmount f.weight) ∧ 0 ≤ weightSum fired ∧ weightSum fired ≤ weightOf rule := by
  rcases part with rfl | ⟨f, rfl, rfl⟩
  · refine ⟨List.forall_mem_nil _, le_rfl, ?_⟩
    cases rule with
    | none => exact le_rfl
    | some w => exact (amount w rfl).toInt_nonneg
  · have positive := amount f.weight rfl
    have single : weightSum [f] = f.weight.toInt := by simp [weightSum]
    rw [single]
    exact ⟨fun _ member => List.mem_singleton.mp member ▸ positive, positive.toInt_nonneg, le_rfl⟩

section Config
variable {config : RiskScorecardConfig}

/-- The weights of all rules, in the order of the signals. -/
def ruleWeights (s : RiskSignalsConfig) : List (Option Number) :=
  [s.firstSeenMerchant, s.amountAboveMerchantTypical.map (·.weight), s.amountAboveGlobalTypical.map (·.weight),
    s.outOfHours.map (·.weight), s.velocityBurst.map (·.weight), s.denyStreak.map (·.weight),
    s.firstUseOfMandate, s.capApproach.map (·.weight)]

theorem wrongUnless_nil {sound : Bool} {message : JsString} (right : wrongUnless sound message = []) :
    sound = true := by
  cases sound with
  | true => rfl
  | false => cases right

theorem isAmount_of_posSafeInt {n : Number} (sound : isPosSafeInt n = true) : IsAmount n := by
  obtain ⟨safe, positive⟩ := Bool.and_eq_true_iff.mp sound
  exact isAmount_of_checked safe fun negative =>
    Number.not_le_of_lt negative (Number.le_of_lt (of_decide_eq_true positive))

theorem weights_sum (rules : List (Option Number)) :
    (rules.map weightOf).sum = ((rules.flatMap Option.toList).map Number.toInt).sum := by
  induction rules with
  | nil => rfl
  | cons rule rest ih =>
    rw [List.map_cons, List.sum_cons, ih, List.flatMap_cons, List.map_append, List.sum_append]
    cases rule <;> simp [weightOf]

theorem forall_of_flatMap_nil {rule : Option ρ} {check : ρ → List JsString}
    (right : rule.toList.flatMap check = []) : ∀ c ∈ rule, check c = [] :=
  fun c member => List.flatMap_eq_nil_iff.mp right c (Option.mem_toList.mpr member)

/-- The sum of safe weights was checked to be safe, which a running sum past the safe range is not. -/
theorem sum_lt_of_safe {weights : List Number} (sound : ∀ w ∈ weights, isPosSafeInt w = true)
    (safe : ((weights.filter isPosSafeInt).foldl (· + ·) 0).isSafeInteger = true) :
    (weights.map Number.toInt).sum < 2 ^ 53 := by
  rw [List.filter_eq_self.mpr sound] at safe
  obtain ⟨tracks, -⟩ := foldl_add_tracks fun w member => isAmount_of_posSafeInt (sound w member)
  by_contra! large
  obtain ⟨n, narrow, total⟩ := Number.isSafeInteger_iff.mp safe
  have beyond := tracks.beyond large
  rw [total, Number.intCast_le (by norm_num) narrow.le] at beyond
  have := abs_lt.mp narrow
  omega

/-- What the validator admits: weights that are positive, with a safe sum, and a baseline of history. -/
theorem violationsOf_nil (admitted : violationsOf config = []) :
    (∀ rule ∈ ruleWeights config.signals, ∀ w ∈ rule, isPosSafeInt w = true) ∧
      ((ruleWeights config.signals).map weightOf).sum < 2 ^ 53 ∧
      (∀ c ∈ config.signals.amountAboveMerchantTypical, isPosSafeInt c.minHistory = true) ∧
      ∀ c ∈ config.signals.amountAboveGlobalTypical, isPosSafeInt c.minHistory = true := by
  unfold violationsOf at admitted
  simp only [List.append_eq_nil_iff] at admitted
  obtain ⟨⟨⟨⟨⟨⟨⟨⟨⟨⟨-, firstSeen⟩, merchantTypical⟩, globalTypical⟩, hours⟩, burst⟩, streak⟩, firstUse⟩, cap⟩, -⟩,
    total⟩ := admitted
  have weight : ∀ {key : RiskSignalKey} {n : Number}, notPosSafeInt key "weight" n = [] → isPosSafeInt n = true :=
    fun right => wrongUnless_nil right
  have typical : ∀ {key : RiskSignalKey} {rule : Option TypicalRule},
      rule.toList.flatMap (typicalViolations key) = [] →
        ∀ c ∈ rule, isPosSafeInt c.weight = true ∧ isPosSafeInt c.minHistory = true := by
    intro key rule right c member
    have each := forall_of_flatMap_nil right c member
    rw [typicalViolations, List.append_eq_nil_iff, List.append_eq_nil_iff] at each
    exact ⟨wrongUnless_nil each.1.1, wrongUnless_nil each.2⟩
  have mapped : ∀ {ρ : Type} {rule : Option ρ} {of : ρ → Number}, (∀ c ∈ rule, isPosSafeInt (of c) = true) →
      ∀ w ∈ rule.map of, isPosSafeInt w = true := by
    rintro ρ rule of each w member
    obtain ⟨c, configured, rfl⟩ := Option.mem_map.mp member
    exact each c configured
  have sound : ∀ rule ∈ ruleWeights config.signals, ∀ w ∈ rule, isPosSafeInt w = true := by
    simp only [ruleWeights, List.forall_mem_cons]
    refine ⟨?_, mapped ?_, mapped ?_, mapped ?_, mapped ?_, mapped ?_, ?_, mapped ?_, List.forall_mem_nil _⟩
    · exact fun w member => weight (forall_of_flatMap_nil firstSeen w member)
    · exact fun c member => (typical merchantTypical c member).1
    · exact fun c member => (typical globalTypical c member).1
    · intro c member
      have each := forall_of_flatMap_nil hours c member
      rw [hoursViolations, List.append_eq_nil_iff] at each
      exact weight each.1
    · intro c member
      have each := forall_of_flatMap_nil burst c member
      simp only [List.append_eq_nil_iff] at each
      exact weight each.1.1
    · intro c member
      have each := forall_of_flatMap_nil streak c member
      simp only [List.append_eq_nil_iff] at each
      exact weight each.1.1
    · exact fun w member => weight (forall_of_flatMap_nil firstUse w member)
    · intro c member
      have each := forall_of_flatMap_nil cap c member
      simp only [List.append_eq_nil_iff] at each
      exact weight each.1.1
  refine ⟨sound, ?_, fun c member => (typical merchantTypical c member).2,
    fun c member => (typical globalTypical c member).2⟩
  rw [weights_sum]
  refine sum_lt_of_safe ?_ ?_
  · intro w member
    obtain ⟨rule, listed, held⟩ := List.mem_flatMap.mp member
    exact sound rule listed w (Option.mem_toList.mp held)
  · have safe := wrongUnless_nil total
    simpa [ruleWeights] using safe

end Config
/-! ### What an assessment is made of -/

section Parts
variable {ρ : Type} {rule : Option ρ} {weight : ρ → Number}

theorem part_bind {signal : ρ → Option FiredSignal} (weighs : ∀ c, ∀ f ∈ signal c, f.weight = weight c) :
    Part (rule.map weight) (rule.bind signal).toList := by
  cases rule with
  | none => exact .inl rfl
  | some c =>
    change Part (some (weight c)) (signal c).toList
    cases fires : signal c with
    | none => exact .inl rfl
    | some f => exact .inr ⟨f, rfl, congrArg some (weighs c f fires).symm⟩

theorem part_bind_weight {rule : Option Number} {signal : Number → Option FiredSignal}
    (weighs : ∀ w, ∀ f ∈ signal w, f.weight = w) : Part rule (rule.bind signal).toList := by
  have part : Part (rule.map fun w => w) (rule.bind signal).toList := part_bind weighs
  rwa [Option.map_id'] at part

theorem whenConfigured_ok {signal : ρ → Except RiskFailure (Option FiredSignal)} {fired : List FiredSignal}
    (ran : RiskScorecard.whenConfigured rule signal = .ok fired) :
    rule = none ∧ fired = [] ∨ ∃ c found, rule = some c ∧ signal c = .ok found ∧ fired = found.toList := by
  cases rule with
  | none =>
    cases ran
    exact .inl ⟨rfl, rfl⟩
  | some c =>
    obtain ⟨found, answer, listed⟩ := bind_ok ran
    cases listed
    exact .inr ⟨c, found, rfl, answer, rfl⟩

theorem part_whenConfigured {signal : ρ → Except RiskFailure (Option FiredSignal)} {fired : List FiredSignal}
    (weighs : ∀ c f, signal c = .ok (some f) → f.weight = weight c)
    (ran : RiskScorecard.whenConfigured rule signal = .ok fired) : Part (rule.map weight) fired := by
  rcases whenConfigured_ok ran with ⟨-, rfl⟩ | ⟨c, found, rfl, answer, rfl⟩
  · exact .inl rfl
  · cases found with
    | none => exact .inl rfl
    | some f => exact .inr ⟨f, rfl, congrArg some (weighs c f answer).symm⟩

end Parts

theorem typicalSignal_weight {c : TypicalRule} {amounts : List ℤ} {f : FiredSignal}
    (ran : typicalSignal amount key whose amounts c = .ok (some f)) : f.weight = c.weight := by
  unfold typicalSignal at ran
  split at ran
  · cases median : lowerMedian amounts with
    | none =>
      rw [median] at ran
      cases ran
    | some m =>
      rw [median] at ran
      dsimp only at ran
      split_ifs at ran
      · cases ran
        rfl
      · cases ran
  · cases ran

theorem firstSeenSignal_weight (w : Number) : ∀ f ∈ firstSeenSignal spends key w, f.weight = w := by
  intro f fires
  unfold firstSeenSignal at fires
  split_ifs at fires
  · cases fires
  · cases fires
    rfl

theorem hoursSignal_weight (c : HoursRule) : ∀ f ∈ hoursSignal nowMs c, f.weight = c.weight := by
  intro f fires
  unfold hoursSignal at fires
  dsimp only at fires
  split_ifs at fires
  · cases fires
  · cases fires
    rfl

theorem burstSignal_weight (c : BurstRule) : ∀ f ∈ burstSignal nowMs spends c, f.weight = c.weight := by
  intro f fires
  unfold burstSignal at fires
  dsimp only at fires
  split_ifs at fires
  · cases fires
    rfl
  · cases fires

theorem streakSignal_weight (c : StreakRule) : ∀ f ∈ streakSignal nowMs denyMs c, f.weight = c.weight := by
  intro f fires
  unfold streakSignal at fires
  dsimp only at fires
  split_ifs at fires
  · cases fires
    rfl
  · cases fires

theorem firstUseSignal_weight (w : Number) : ∀ f ∈ firstUseSignal mandateId used w, f.weight = w := by
  intro f fires
  unfold firstUseSignal at fires
  split at fires
  · split_ifs at fires
    · cases fires
    · cases fires
      rfl
  · cases fires

theorem capSignal_weight {c : CapRule} {f : FiredSignal}
    (ran : capSignal amount nowMs spends perDay c = .ok (some f)) : f.weight = c.weight := by
  unfold capSignal at ran
  split at ran
  · cases ran
  · dsimp only at ran
    split at ran
    · split at ran <;> cases ran
    · split_ifs at ran
      · cases ran
        rfl
      · cases ran

namespace RiskScorecard
variable {platform : Platform} (card : RiskScorecard platform) (input : RiskAssessInput)

/-- The amounts of the merchant's spends in the lookback. -/
def merchantAmounts : List ℤ :=
  ((card.history input).spends.filter (·.merchantKey = some (merchantKeyOf platform input.intent.merchant))).map
    (·.amountMinor)

def firstSeenPart : List FiredSignal :=
  (card.config.signals.firstSeenMerchant.bind
    (firstSeenSignal (card.history input).spends (merchantKeyOf platform input.intent.merchant))).toList

/-- The signals on which neither the merchant nor the amount bears. -/
def fixedPart : List FiredSignal :=
  (card.config.signals.outOfHours.bind (hoursSignal input.nowMs)).toList ++
    (card.config.signals.velocityBurst.bind (burstSignal input.nowMs (card.history input).spends)).toList ++
    (card.config.signals.denyStreak.bind (streakSignal input.nowMs (card.history input).denyMs)).toList ++
    (card.config.signals.firstUseOfMandate.bind
      (firstUseSignal (mandateOf input.intent) (card.history input).mandatePriorUse)).toList

/-- The parts of an assessment: three that look at the amount, one at the merchant, and the others. -/
structure Parts where
  amount : IsAmount input.intent.amount.amountMinor
  merchantTypical : List FiredSignal
  ofMerchant : whenConfigured card.config.signals.amountAboveMerchantTypical
    (typicalSignal input.intent.amount.amountMinor .amountAboveMerchantTypical "this merchant's"
      (card.merchantAmounts input)) = .ok merchantTypical
  globalTypical : List FiredSignal
  ofAll : whenConfigured card.config.signals.amountAboveGlobalTypical
    (typicalSignal input.intent.amount.amountMinor .amountAboveGlobalTypical "the global"
      ((card.history input).spends.map (·.amountMinor))) = .ok globalTypical
  cap : List FiredSignal
  ofCap : whenConfigured card.config.signals.capApproach (capSignal input.intent.amount.amountMinor input.nowMs
    (card.history input).spends input.policy.limits.perDayMinor) = .ok cap

variable {card input} {a : Assessment}

def Parts.fired (parts : card.Parts input) : List FiredSignal :=
  card.firstSeenPart input ++ parts.merchantTypical ++ parts.globalTypical ++ card.fixedPart input ++ parts.cap

theorem assess_parts (assessed : card.assess input = .ok a) :
    ∃ parts : card.Parts input, a.score = scoreOf parts.fired := by
  unfold assess at assessed
  dsimp only at assessed
  split_ifs at assessed with clock amount
  obtain ⟨fired, ran, assessed⟩ := bind_ok assessed
  cases assessed
  unfold RiskScorecard.fired at ran
  obtain ⟨merchantTypical, ofMerchant, ran⟩ := bind_ok ran
  obtain ⟨globalTypical, ofAll, ran⟩ := bind_ok ran
  obtain ⟨cap, ofCap, ran⟩ := bind_ok ran
  cases ran
  simp only [Bool.or_eq_true, Bool.not_eq_true', decide_eq_true_eq, not_or, Bool.not_eq_false] at amount
  refine ⟨⟨isAmount_of_checked amount.1 amount.2, merchantTypical, ofMerchant, globalTypical, ofAll, cap, ofCap⟩, ?_⟩
  simp only [Parts.fired, fixedPart, firstSeenPart, List.append_assoc]

/-- What the parts add, exactly. -/
def Parts.total (parts : card.Parts input) : ℤ :=
  weightSum (card.firstSeenPart input) + weightSum parts.merchantTypical + weightSum parts.globalTypical +
    weightSum (card.fixedPart input) + weightSum parts.cap

/-- The score is the exact sum of what the parts add. -/
theorem Parts.score (parts : card.Parts input) :
    scoreOf parts.fired = (parts.total : ℤ) ∧ 0 ≤ parts.total ∧ parts.total < 2 ^ 53 := by
  obtain ⟨sound, small, -⟩ := violationsOf_nil card.admitted
  simp only [ruleWeights, List.forall_mem_cons, List.map_cons, List.sum_cons, List.map_nil, List.sum_nil] at sound small
  obtain ⟨w₁, w₂, w₃, w₄, w₅, w₆, w₇, w₈, -⟩ := sound
  have part : ∀ {rule : Option Number} {fired : List FiredSignal}, (∀ w ∈ rule, isPosSafeInt w = true) →
      Part rule fired → (∀ f ∈ fired, IsAmount f.weight) ∧ 0 ≤ weightSum fired ∧
        weightSum fired ≤ weightOf rule :=
    fun positive parted => part_weight parted fun w member => isAmount_of_posSafeInt (positive w member)
  obtain ⟨a₁, n₁, l₁⟩ := part w₁ (part_bind_weight firstSeenSignal_weight)
  obtain ⟨a₂, n₂, l₂⟩ := part w₂ (part_whenConfigured (fun _ _ => typicalSignal_weight) parts.ofMerchant)
  obtain ⟨a₃, n₃, l₃⟩ := part w₃ (part_whenConfigured (fun _ _ => typicalSignal_weight) parts.ofAll)
  obtain ⟨a₄, n₄, l₄⟩ := part w₄ (part_bind hoursSignal_weight)
  obtain ⟨a₅, n₅, l₅⟩ := part w₅ (part_bind burstSignal_weight)
  obtain ⟨a₆, n₆, l₆⟩ := part w₆ (part_bind streakSignal_weight)
  obtain ⟨a₇, n₇, l₇⟩ := part w₇ (part_bind_weight firstUseSignal_weight)
  obtain ⟨a₈, n₈, l₈⟩ := part w₈ (part_whenConfigured (fun _ _ => capSignal_weight) parts.ofCap)
  have total : weightSum parts.fired = parts.total := by
    simp only [Parts.fired, Parts.total, weightSum_append]
  have amounts : ∀ f ∈ parts.fired, IsAmount f.weight := by
    simp only [Parts.fired, firstSeenPart, fixedPart, List.forall_mem_append]
    exact ⟨⟨⟨⟨a₁, a₂⟩, a₃⟩, ⟨⟨a₄, a₅⟩, a₆⟩, a₇⟩, a₈⟩
  have bounds : 0 ≤ parts.total ∧ parts.total < 2 ^ 53 := by
    simp only [Parts.total, firstSeenPart, fixedPart, weightSum_append]
    omega
  rw [← total] at bounds ⊢
  exact ⟨(scoreOf_eq amounts bounds.2).1, bounds⟩

/-- A score is compared as the exact totals are. -/
theorem score_le_iff {input' : RiskAssessInput} {a b : Assessment} {parts : card.Parts input}
    {parts' : card.Parts input'} (first : a.score = scoreOf parts.fired) (second : b.score = scoreOf parts'.fired) :
    a.score ≤ b.score ↔ parts.total ≤ parts'.total := by
  obtain ⟨exactly, nonneg, small⟩ := parts.score
  obtain ⟨exactly', nonneg', small'⟩ := parts'.score
  rw [first, second, exactly, exactly']
  refine Number.intCast_le ?_ ?_
  · rw [abs_of_nonneg nonneg]
    exact small.le
  · rw [abs_of_nonneg nonneg']
    exact small'.le

end RiskScorecard

/-! ### The amount -/

/-- The same intent for another amount. -/
def RiskAssessInput.withAmount (input : RiskAssessInput) (amountMinor : Number) : RiskAssessInput :=
  { input with intent := { input.intent with amount := { input.intent.amount with amountMinor } } }

/-- The same intent in the name of another agent. -/
def RiskAssessInput.withAgent (input : RiskAssessInput) (agentId : JsString) : RiskAssessInput :=
  { input with intent := { input.intent with agentId } }

/-- The same intent for another merchant. -/
def RiskAssessInput.withMerchant (input : RiskAssessInput) (merchant : MerchantRef) : RiskAssessInput :=
  { input with intent := { input.intent with merchant } }

/-- A rule whose signal, where it fires, fires after the change too adds no less then. -/
theorem whenConfigured_mono {ρ : Type} {rule : Option ρ} {weight : ρ → Number}
    {signal signal' : ρ → Except RiskFailure (Option FiredSignal)} {fired fired' : List FiredSignal}
    (amounts : ∀ w ∈ rule.map weight, isPosSafeInt w = true)
    (weighs : ∀ c f, signal c = .ok (some f) → f.weight = weight c)
    (weighs' : ∀ c f, signal' c = .ok (some f) → f.weight = weight c)
    (grows : ∀ c f, signal c = .ok (some f) → signal' c ≠ .ok none)
    (ran : RiskScorecard.whenConfigured rule signal = .ok fired)
    (ran' : RiskScorecard.whenConfigured rule signal' = .ok fired') : weightSum fired ≤ weightSum fired' := by
  have positive : ∀ w ∈ rule.map weight, IsAmount w := fun w member => isAmount_of_posSafeInt (amounts w member)
  have after := (part_weight (part_whenConfigured weighs' ran') positive).2.1
  rcases whenConfigured_ok ran with ⟨-, rfl⟩ | ⟨c, found, rfl, answer, rfl⟩
  · exact after
  cases found with
  | none => exact after
  | some f =>
    rcases whenConfigured_ok ran' with ⟨absent, -⟩ | ⟨c', found', ruled, answer', rfl⟩
    · cases absent
    cases ruled
    cases found' with
    | none => exact absurd answer' (grows c f answer)
    | some f' =>
      have same : f'.weight = f.weight := (weighs' c f' answer').trans (weighs c f answer).symm
      simp [weightSum, same]

theorem typicalSignal_grows {c : TypicalRule} {amounts : List ℤ} (le : amount.toInt ≤ more.toInt)
    (fires : typicalSignal amount key whose amounts c = .ok (some f)) :
    typicalSignal more key whose amounts c ≠ .ok none := by
  unfold typicalSignal at fires ⊢
  split at fires
  · rename_i enough
    rw [if_pos enough]
    cases median : lowerMedian amounts with
    | none => exact nofun
    | some m =>
      rw [median] at fires
      dsimp only at fires ⊢
      split_ifs at fires with above
      · rw [if_pos (above.trans_le (by omega))]
        exact nofun
      · cases fires
  · cases fires

theorem capSignal_grows {c : CapRule} (le : amount.toInt ≤ more.toInt)
    (fires : capSignal amount nowMs spends perDay c = .ok (some f)) :
    capSignal more nowMs spends perDay c ≠ .ok none := by
  unfold capSignal at fires ⊢
  split at fires
  · cases fires
  · dsimp only at fires ⊢
    split at fires
    · split at fires <;> cases fires
    · rename_i usable
      rw [if_neg usable]
      split_ifs at fires with reached
      · rw [if_pos (reached.trans (by omega))]
        rintro ⟨⟩
      · cases fires

variable {platform : Platform} {card : RiskScorecard platform} {input : RiskAssessInput}

theorem toInt_le_of_le {m n : Number} (first : IsAmount m) (second : IsAmount n) (le : m ≤ n) : m.toInt ≤ n.toInt := by
  rw [first.eq_toInt, second.eq_toInt] at le
  refine (Number.intCast_le ?_ ?_).mp le
  · rw [abs_of_nonneg first.toInt_nonneg]
    exact first.toInt_lt.le
  · rw [abs_of_nonneg second.toInt_nonneg]
    exact second.toInt_lt.le

/-- A larger amount does not lower the score. -/
theorem score_mono_amount {a b : Assessment} (assessed : card.assess input = .ok a)
    (le : input.intent.amount.amountMinor ≤ more) (assessed' : card.assess (input.withAmount more) = .ok b) :
    a.score ≤ b.score := by
  obtain ⟨parts, first⟩ := RiskScorecard.assess_parts assessed
  obtain ⟨parts', second⟩ := RiskScorecard.assess_parts assessed'
  have grown := toInt_le_of_le parts.amount parts'.amount le
  obtain ⟨sound, -⟩ := violationsOf_nil card.admitted
  simp only [ruleWeights, List.forall_mem_cons] at sound
  obtain ⟨-, w₂, w₃, -, -, -, -, w₈, -⟩ := sound
  have ofMerchant := whenConfigured_mono w₂ (fun _ _ => typicalSignal_weight) (fun _ _ => typicalSignal_weight)
    (fun _ _ => typicalSignal_grows grown) parts.ofMerchant parts'.ofMerchant
  have ofAll := whenConfigured_mono w₃ (fun _ _ => typicalSignal_weight) (fun _ _ => typicalSignal_weight)
    (fun _ _ => typicalSignal_grows grown) parts.ofAll parts'.ofAll
  have ofCap := whenConfigured_mono w₈ (fun _ _ => capSignal_weight) (fun _ _ => capSignal_weight)
    (fun _ _ => capSignal_grows grown) parts.ofCap parts'.ofCap
  rw [RiskScorecard.score_le_iff first second]
  have firstSeen : card.firstSeenPart (input.withAmount more) = card.firstSeenPart input := rfl
  have fixed : card.fixedPart (input.withAmount more) = card.fixedPart input := rfl
  simp only [RiskScorecard.Parts.total, firstSeen, fixed]
  omega

/-- No part of an assessment looks at the agent. -/
theorem assess_withAgent (agentId : JsString) : card.assess (input.withAgent agentId) = card.assess input := rfl

/-! ### The merchant -/

section Familiarity
variable {platform : Platform} {key : JsString}

theorem spendOf_keyless {e : LedgerEntry} (unseen : textOf (member "merchantKey" e.data) ≠ some key) :
    ∀ r ∈ spendOf platform currency since e, r.merchantKey ≠ some key := by
  intro r found
  unfold spendOf at found
  split at found
  · split_ifs at found
    · cases found
    · obtain ⟨ms, -, rfl⟩ := Option.map_eq_some_iff.mp found
      exact unseen
  · cases found

theorem gather_keyless {h : History} {e : LedgerEntry} (unseen : textOf (member "merchantKey" e.data) ≠ some key)
    (earlier : ∀ r ∈ h.spends, r.merchantKey ≠ some key) :
    ∀ r ∈ (gather platform currency since mandateId intentId h e).spends, r.merchantKey ≠ some key := by
  unfold gather
  split
  · intro r listed
    rcases List.mem_append.mp listed with old | new
    · exact earlier r old
    · exact spendOf_keyless unseen r (Option.mem_toList.mp new)
  · exact earlier
  · exact earlier
  · exact earlier

theorem foldl_gather_keyless {entries : List LedgerEntry} {h : History}
    (unseen : ∀ e ∈ entries, textOf (member "merchantKey" e.data) ≠ some key)
    (earlier : ∀ r ∈ h.spends, r.merchantKey ≠ some key) :
    ∀ r ∈ (entries.foldl (gather platform currency since mandateId intentId) h).spends, r.merchantKey ≠ some key := by
  induction entries generalizing h with
  | nil => exact earlier
  | cons e rest ih =>
    rw [List.forall_mem_cons] at unseen
    exact ih unseen.2 (gather_keyless unseen.1 earlier)

end Familiarity

/-- No row of the ledger names the merchant. -/
def NeverSeen (platform : Platform) (entries : List LedgerEntry) (merchant : MerchantRef) : Prop :=
  ∀ e ∈ entries, textOf (member "merchantKey" e.data) ≠ some (merchantKeyOf platform merchant)

/-- There is history enough of the merchant, and the amount is above its typical one. -/
def AboveTypical (card : RiskScorecard platform) (input : RiskAssessInput) (c : TypicalRule) : Prop :=
  c.minHistory ≤ (((card.merchantAmounts input).length : ℤ) : Number) ∧
    ∃ median ∈ lowerMedian (card.merchantAmounts input),
      median * c.multiplierBps.toInt < input.intent.amount.amountMinor.toInt * 10000

/-- The merchant's own history speaks against the amount, and weighs more than having no history would. -/
def Outweighs (card : RiskScorecard platform) (input : RiskAssessInput) : Prop :=
  ∃ c ∈ card.config.signals.amountAboveMerchantTypical, AboveTypical card input c ∧
    weightOf card.config.signals.firstSeenMerchant < c.weight.toInt

/-- Whether the merchant has a spend in the lookback. -/
def Familiar (card : RiskScorecard platform) (input : RiskAssessInput) : Prop :=
  ∃ r ∈ (card.history input).spends, r.merchantKey = some (merchantKeyOf platform input.intent.merchant)

theorem not_familiar_of_neverSeen (unseen : NeverSeen platform input.entries merchant) :
    ¬Familiar card (input.withMerchant merchant) := by
  rintro ⟨r, listed, keyed⟩
  exact foldl_gather_keyless unseen (List.forall_mem_nil _) r listed keyed

theorem firstSeenPart_weight : weightSum (card.firstSeenPart input) =
    open Classical in if Familiar card input then 0 else weightOf card.config.signals.firstSeenMerchant := by
  have any : (card.history input).spends.any (·.merchantKey = some (merchantKeyOf platform input.intent.merchant)) =
      true ↔ Familiar card input := by
    simp only [List.any_eq_true, decide_eq_true_eq, Familiar]
  rw [RiskScorecard.firstSeenPart]
  cases card.config.signals.firstSeenMerchant with
  | none =>
    split_ifs <;> rfl
  | some w =>
    rw [Option.bind_some, firstSeenSignal]
    by_cases familiar : Familiar card input
    · rw [if_pos familiar, if_pos (any.mpr familiar)]
      rfl
    · rw [if_neg familiar, if_neg (mt any.mp familiar)]
      simp [weightSum, weightOf]

theorem merchantAmounts_nil (unfamiliar : ¬Familiar card input) : card.merchantAmounts input = [] := by
  rw [RiskScorecard.merchantAmounts, List.map_eq_nil_iff, List.filter_eq_nil_iff]
  intro r listed keyed
  exact unfamiliar ⟨r, listed, of_decide_eq_true keyed⟩

theorem typicalSignal_cases {c : TypicalRule} {amounts : List ℤ} {found : Option FiredSignal}
    (ran : typicalSignal amount key whose amounts c = .ok found) :
    found.isSome ↔ c.minHistory ≤ ((amounts.length : ℤ) : Number) ∧
      ∃ median ∈ lowerMedian amounts, median * c.multiplierBps.toInt < amount.toInt * 10000 := by
  unfold typicalSignal at ran
  split at ran
  · rename_i enough
    cases median : lowerMedian amounts with
    | none =>
      rw [median] at ran
      cases ran
    | some m =>
      rw [median] at ran
      dsimp only at ran
      split_ifs at ran with above
      · cases ran
        exact iff_of_true rfl ⟨enough, m, rfl, above⟩
      · cases ran
        refine iff_of_false Bool.false_ne_true ?_
        rintro ⟨-, m', held, above'⟩
        cases held
        exact above above'
  · rename_i few
    cases ran
    exact iff_of_false Bool.false_ne_true fun enough => few enough.1

/-- What the merchant's typical amount adds: the rule's weight or nothing. -/
theorem merchantTypical_cases (parts : card.Parts input) :
    (∃ c ∈ card.config.signals.amountAboveMerchantTypical, AboveTypical card input c ∧
      weightSum parts.merchantTypical = c.weight.toInt) ∨
    (∀ c ∈ card.config.signals.amountAboveMerchantTypical, ¬AboveTypical card input c) ∧
      weightSum parts.merchantTypical = 0 := by
  rcases whenConfigured_ok parts.ofMerchant with ⟨absent, silent⟩ | ⟨c, found, configured, answer, listed⟩
  · rw [absent, silent]
    exact .inr ⟨fun c configured => absurd configured (Option.not_mem_none c), rfl⟩
  have above := typicalSignal_cases answer
  rw [configured, listed]
  cases found with
  | none =>
    refine .inr ⟨?_, rfl⟩
    rintro c' ⟨⟩
    exact fun held => Bool.false_ne_true (above.mpr held)
  | some f =>
    have weighs : f.weight = c.weight := typicalSignal_weight answer
    exact .inl ⟨c, rfl, above.mp rfl, by simp [weightSum, weighs]⟩

theorem weightOf_firstSeen_nonneg (card : RiskScorecard platform) :
    0 ≤ weightOf card.config.signals.firstSeenMerchant := by
  obtain ⟨sound, -⟩ := violationsOf_nil card.admitted
  have positive := sound _ List.mem_cons_self
  cases configured : card.config.signals.firstSeenMerchant with
  | none => exact le_rfl
  | some w => exact (isAmount_of_posSafeInt (positive w configured)).toInt_nonneg

/-- Without history the typical amount is not exceeded, since the rule wants some. -/
theorem not_aboveTypical (unfamiliar : ¬Familiar card input) :
    ∀ c ∈ card.config.signals.amountAboveMerchantTypical, ¬AboveTypical card input c := by
  rintro c configured ⟨enough, -⟩
  obtain ⟨-, -, history, -⟩ := violationsOf_nil card.admitted
  have positive := of_decide_eq_true (Bool.and_eq_true_iff.mp (history c configured)).2
  rw [merchantAmounts_nil unfamiliar] at enough
  exact Number.not_le_of_lt positive enough

/-- Against a merchant without history, the score is higher just where the merchant's own history outweighs. -/
theorem score_le_unseen {merchant : MerchantRef} {a b : Assessment} (assessed : card.assess input = .ok a)
    (unseen : NeverSeen platform input.entries merchant)
    (assessed' : card.assess (input.withMerchant merchant) = .ok b) : a.score ≤ b.score ↔ ¬Outweighs card input := by
  obtain ⟨parts, first⟩ := RiskScorecard.assess_parts assessed
  obtain ⟨parts', second⟩ := RiskScorecard.assess_parts assessed'
  have unfamiliar : ¬Familiar card (input.withMerchant merchant) := not_familiar_of_neverSeen unseen
  have firstSeen' : weightSum (card.firstSeenPart (input.withMerchant merchant)) =
      weightOf card.config.signals.firstSeenMerchant := by rw [firstSeenPart_weight, if_neg unfamiliar]
  have typical' : weightSum parts'.merchantTypical = 0 := by
    rcases merchantTypical_cases parts' with ⟨c, configured, above, -⟩ | ⟨-, silent⟩
    · exact absurd above (not_aboveTypical unfamiliar c configured)
    · exact silent
  have ofAll : parts'.globalTypical = parts.globalTypical := Except.ok.inj (parts'.ofAll.symm.trans parts.ofAll)
  have ofCap : parts'.cap = parts.cap := Except.ok.inj (parts'.ofCap.symm.trans parts.ofCap)
  have fixed : card.fixedPart (input.withMerchant merchant) = card.fixedPart input := rfl
  have compared : parts.total ≤ parts'.total ↔
      weightSum (card.firstSeenPart input) + weightSum parts.merchantTypical ≤
        weightOf card.config.signals.firstSeenMerchant := by
    simp only [RiskScorecard.Parts.total, firstSeen', typical', ofAll, ofCap, fixed]
    omega
  rw [RiskScorecard.score_le_iff first second, compared, firstSeenPart_weight]
  have nonneg := weightOf_firstSeen_nonneg card
  rcases merchantTypical_cases parts with ⟨c, configured, above, weighs⟩ | ⟨below, silent⟩
  · have familiar : Familiar card input := by
      by_contra unfamiliar
      exact not_aboveTypical unfamiliar c configured above
    rw [if_pos familiar, weighs, zero_add, ← not_lt]
    refine not_congr ⟨fun heavier => ⟨c, configured, above, heavier⟩, ?_⟩
    rintro ⟨c', configured', -, heavier⟩
    rwa [Option.mem_unique configured' configured] at heavier
  · refine iff_of_true ?_ ?_
    · rw [silent]
      split_ifs <;> omega
    · rintro ⟨c, configured, above, -⟩
      exact below c configured above

/-- A larger amount and another agent do not lower a score, and a merchant never seen lowers it just where the
present one's own history outweighs. -/
theorem score_levers {a : Assessment} (assessed : card.assess input = .ok a) :
    (∀ {more b}, input.intent.amount.amountMinor ≤ more → card.assess (input.withAmount more) = .ok b →
      a.score ≤ b.score) ∧
    (∀ agentId, card.assess (input.withAgent agentId) = .ok a) ∧
    ∀ {merchant b}, NeverSeen platform input.entries merchant → card.assess (input.withMerchant merchant) = .ok b →
      (a.score ≤ b.score ↔ ¬Outweighs card input) :=
  ⟨score_mono_amount assessed, fun agentId => (assess_withAgent agentId).trans assessed, score_le_unseen assessed⟩

namespace Levers
open Vaduno.Sample

/-- A typical amount that weighs more than a merchant without history. -/
def config : RiskScorecardConfig :=
  ⟨86400000, 5, 20, none, ⟨some 10, some ⟨30, 10000, 1⟩, none, none, none, none, none, none⟩⟩

def configText : JsString :=
  encode "\x7b\"denyAt\":20,\"lookbackMs\":86400000,\"signals\":\x7b" ++
    encode "\"AMOUNT_ABOVE_MERCHANT_TYPICAL\":\x7b\"minHistory\":1,\"multiplierBps\":10000,\"weight\":30\x7d," ++
    encode "\"FIRST_SEEN_MERCHANT\":\x7b\"weight\":10\x7d\x7d,\"stepUpAt\":5\x7d"

theorem config_sound : violationsOf config = [] ∧ (canonicalJson config.object).toOption = some configText := by
  decide +kernel

def typicalCard : RiskScorecard Sample.platform where
  config := config
  admitted := config_sound.1
  configHash := Sample.platform.sha256Hex (configHashDomain ++ configText)
  hashed := by rw [of_toOption config_sound.2]; rfl

/-- A spend of one cent at the merchant of the sample's intent. -/
def spend : LedgerEntry :=
  let row : LedgerEntry := ⟨⟨"2026-01-01T00:00:00.000Z", .executionResult, ⟨none, none⟩,
    .object [(encode "success", .boolean true), (encode "amountMinor", .number 1),
      (encode "currency", .string "USD"), (encode "merchantKey", .string "id:openai")]⟩, 0, genesisHash, []⟩
  { row with hash := (entryHash Sample.platform row).toOption.getD [] }

def known : RiskAssessInput := ⟨Sample.intent "i-1", Sample.policy, [spend], 1767225600001⟩

def other : MerchantRef := ⟨"other", none⟩

theorem known_scores : (verify Sample.platform none [spend]).ok = true ∧
    textOf (member "merchantKey" spend.data) = some (merchantKeyOf Sample.platform known.intent.merchant) ∧
    merchantKeyOf Sample.platform known.intent.merchant ≠ merchantKeyOf Sample.platform other ∧
    ((typicalCard.assess known).toOption.any fun a => decide (a.score = 30)) = true ∧
    ((typicalCard.assess (known.withMerchant other)).toOption.any fun b => decide (b.score = 10)) = true ∧
    ((10 : Number) < 30) ∧ (500 : Number) ≤ 600 := by
  decide +kernel

theorem assessed_of_any {input : RiskAssessInput} {scored : Assessment → Bool}
    (found : (typicalCard.assess input).toOption.any scored = true) :
    ∃ a, typicalCard.assess input = .ok a ∧ scored a = true := by
  obtain ⟨a, assessed, holds⟩ := (Option.any_eq_true _ _).mp found
  exact ⟨a, of_toOption assessed, holds⟩

theorem other_neverSeen : NeverSeen Sample.platform known.entries other := by
  obtain ⟨-, keyed, differ, -⟩ := known_scores
  intro e listed
  cases List.mem_singleton.mp listed
  rw [keyed]
  exact fun same => differ (Option.some.inj same)

/-- Another merchant than the known one brings the score of a large amount down from 30 to 10. -/
theorem unknown_scores_lower : (verify Sample.platform none known.entries).ok = true ∧
    (∃ e ∈ known.entries,
      textOf (member "merchantKey" e.data) = some (merchantKeyOf Sample.platform known.intent.merchant)) ∧
    NeverSeen Sample.platform known.entries other ∧
    ∃ a b, typicalCard.assess known = .ok a ∧ typicalCard.assess (known.withMerchant other) = .ok b ∧
      b.score < a.score := by
  obtain ⟨verified, keyed, -, high, low, less, -⟩ := known_scores
  obtain ⟨a, assessed, thirty⟩ := assessed_of_any high
  obtain ⟨b, assessed', ten⟩ := assessed_of_any low
  refine ⟨verified, ⟨spend, List.mem_singleton_self spend, keyed⟩, other_neverSeen, a, b, assessed, assessed', ?_⟩
  rw [of_decide_eq_true thirty, of_decide_eq_true ten]
  exact less

theorem known_levers : ∃ a, typicalCard.assess known = .ok a ∧
    (∀ b, typicalCard.assess (known.withAmount 600) = .ok b → a.score ≤ b.score) ∧
    typicalCard.assess (known.withAgent "agent-2") = .ok a ∧
    ∃ b, typicalCard.assess (known.withMerchant other) = .ok b ∧
      (a.score ≤ b.score ↔ ¬Outweighs typicalCard known) := by
  obtain ⟨-, -, -, high, low, -, more⟩ := known_scores
  obtain ⟨a, assessed, -⟩ := assessed_of_any high
  obtain ⟨b, assessed', -⟩ := assessed_of_any low
  obtain ⟨larger, others, merchants⟩ := score_levers assessed
  exact ⟨a, assessed, fun _ => larger more, others "agent-2", b, assessed', merchants other_neverSeen assessed'⟩

end Levers
end Vaduno.Risk
