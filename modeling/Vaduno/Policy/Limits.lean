import Vaduno.Policy.Evaluation
import Vaduno.Sample

/-! The numbers of a policy. Those of the windows are checked before anything is compared with them;
the limit on one transaction and the approval threshold are compared as they are. -/
namespace Vaduno.Policy
open Ecma Enforce Program

/-- There, and not a finite number from zero on. -/
def Unusable (limit : JsValue) : Prop :=
  isUndefined limit = false ∧ ∀ n, limit = .number n → n.isFinite = false ∨ n < 0

/-- The numbers of the count limits that a policy lists. -/
def countNumbers (policy : SpendPolicy) : List JsValue :=
  (countLimits policy.velocity.maxTransactions ++ countLimits policy.velocity.maxTransactionsPerMerchant).flatMap
    fun limit => [member "count" limit, member "perSeconds" limit]

/-- The numbers of the amount windows. -/
def amountNumbers (policy : SpendPolicy) : List JsValue :=
  [policy.limits.perDayMinor, policy.limits.perWeekMinor, policy.limits.perMonthMinor]

section Windows

theorem not_isSafeFrom {limit : JsValue} (unusable : Unusable limit) {least : Number} (least_zero : 0 ≤ least) :
    isSafeFrom least limit = false := by
  cases limit with
  | number n =>
    rw [isSafeFrom, Bool.and_eq_false_iff]
    obtain infinite | negative := unusable.2 n rfl
    · left
      cases n with
      | fin d => cases infinite
      | _ => rfl
    · right
      simp [Number.lt_of_lt_of_le negative least_zero]
  | _ => rfl

/-- Seconds that are unusable give milliseconds that are. -/
theorem not_isPositiveFinite {limit : JsValue} (unusable : Unusable limit) :
    isPositiveFinite (.number (numOrNaN limit * 1000)) = false := by
  obtain ⟨d, value, thousand⟩ : ∃ d : Double, d.val = 1000 ∧ (1000 : Number) = .fin d :=
    ⟨_, rfl, Number.intCast_def (by decide)⟩
  rw [thousand]
  cases limit with
  | number n =>
    change isPositiveFinite (.number (n.mul (.fin d))) = false
    obtain infinite | negative := unusable.2 n rfl
    · cases n with
      | fin e => cases infinite
      | nan => rfl
      | posInf => simp [Number.mul, value, isPositiveFinite, Number.isFinite]
      | negInf => simp [Number.mul, value, isPositiveFinite, Number.isFinite]
    · cases n with
      | fin e =>
        have below : e.val ≤ 0 := by
          rw [show (0 : Number) = .fin ⟨_, Binary64.representable_intCast (show |(0 : ℤ)| ≤ 2 ^ 53 by decide)⟩ from
            Number.intCast_def (by decide), Number.fin_lt] at negative
          exact_mod_cast negative.le
        have nonpos : Number.round (e.val * d.val) ≤ 0 :=
          Number.round_mono (by rw [value]; push_cast; linarith)
        rw [isPositiveFinite, Number.mul, Bool.and_eq_false_iff]
        exact .inr (by simp [nonpos])
      | nan => rfl
      | posInf => simp [Number.mul, value, isPositiveFinite, Number.isFinite]
      | negInf => simp [Number.mul, value, isPositiveFinite, Number.isFinite]
  | _ => rfl

theorem malformed_amountWindow {limit : JsValue} (unusable : Unusable limit) (windowMs : Number) (code : JsString) :
    ∃ w ∈ amountWindow limit windowMs code, ¬WellFormed w := by
  rw [amountWindow, unusable.1]
  refine ⟨_, List.mem_singleton.mpr rfl, fun wellFormed => ?_⟩
  rcases wellFormed.cap with absent | safe
  · rw [unusable.1] at absent
    cases absent
  · have refused : isSafeFrom 0 limit = false := not_isSafeFrom unusable (Number.intCast_mono le_rfl)
    rw [refused] at safe
    cases safe

theorem malformed_countWindow {entry limit : JsValue} (unusable : Unusable limit)
    (number : limit ∈ [member "count" entry, member "perSeconds" entry]) (code : JsString) (dimension : JsValue) :
    ¬WellFormed (countWindow code dimension entry) := by
  intro wellFormed
  simp only [List.mem_cons, List.not_mem_nil, or_false] at number
  obtain rfl | rfl := number
  · rcases wellFormed.count with absent | safe
    · cases absent
    · have refused : isSafeFrom 1 (.number (numOrNaN (member "count" entry))) = false := by
        cases given : member "count" entry with
        | number n =>
          rw [given] at unusable
          exact not_isSafeFrom unusable (Number.intCast_mono (by decide))
        | _ => rfl
      rw [countWindow, refused] at safe
      cases safe
  · have length := wellFormed.length
    rw [countWindow, not_isPositiveFinite unusable] at length
    cases length

/-- An unusable number in a window makes the window malformed. -/
theorem malformed_of_unusable {policy : SpendPolicy} {limit : JsValue} (unusable : Unusable limit)
    (listed : limit ∈ amountNumbers policy ++ countNumbers policy) :
    ∃ w ∈ policyWindows policy, ¬WellFormed w := by
  rcases List.mem_append.mp listed with amount | count
  · simp only [amountNumbers, List.mem_cons, List.not_mem_nil, or_false] at amount
    obtain rfl | rfl | rfl := amount
    · obtain ⟨w, member, malformed⟩ := malformed_amountWindow unusable dayMs "PER_DAY_LIMIT_EXCEEDED"
      exact ⟨w, by simp [policyWindows, member], malformed⟩
    · obtain ⟨w, member, malformed⟩ := malformed_amountWindow unusable (7 * dayMs) "PER_WEEK_LIMIT_EXCEEDED"
      exact ⟨w, by simp [policyWindows, member], malformed⟩
    · obtain ⟨w, member, malformed⟩ := malformed_amountWindow unusable (30 * dayMs) "PER_MONTH_LIMIT_EXCEEDED"
      exact ⟨w, by simp [policyWindows, member], malformed⟩
  · obtain ⟨entry, listed, number⟩ := List.mem_flatMap.mp count
    rcases List.mem_append.mp listed with whole | merchant
    · refine ⟨_, ?_, malformed_countWindow unusable number "VELOCITY_EXCEEDED" .undefined⟩
      simp only [policyWindows, List.mem_append, List.mem_map]
      exact .inl (.inr ⟨entry, whole, rfl⟩)
    · refine ⟨_, ?_, malformed_countWindow unusable number "MERCHANT_VELOCITY_EXCEEDED" (.string "merchant")⟩
      simp only [policyWindows, List.mem_append, List.mem_map]
      exact .inr ⟨entry, merchant, rfl⟩

variable {platform : Platform} {answer : (op : Op) → op.Answer} {intent : PaymentIntent}
  {policy : SpendPolicy} {countsMerchants : Bool} {result : PolicyResult}

/-- A policy with a malformed window denies whatever it decides. -/
theorem malformed_denied (decided : evaluation platform answer intent policy countsMerchants = .ok result)
    (malformed : ∃ w ∈ policyWindows policy, ¬WellFormed w) : result.decision = .deny := by
  obtain ⟨w, member, malformed⟩ := malformed
  obtain ⟨reasons, advice, -, advised, decided⟩ := evaluation_ok decided
  obtain ⟨problem, checked, advised⟩ := bind_ok advised
  cases problem with
  | none => exact absurd (misconfigured_none_iff.mp checked w member) malformed
  | some reason =>
    cases advised
    rw [if_pos (List.append_ne_nil_of_right_ne_nil _ (List.cons_ne_nil _ _))] at decided
    cases decided
    rfl

end Windows

section Compared
variable {platform : Platform} {answer : (op : Op) → op.Answer} {intent : PaymentIntent}
  {policy : SpendPolicy} {countsMerchants : Bool} {result : PolicyResult}

/-- Nothing exceeds a limit that is not there, and nothing reaches it. -/
theorem compared_absent {limit : JsValue} (absent : isUndefined limit = true) (n : Number) :
    platform.exceeds n limit = .ok false ∧ platform.reaches n limit = .ok false := by
  cases limit with
  | undefined => exact ⟨rfl, rfl⟩
  | _ => cases absent

/-- What converts to a number converts to text. -/
theorem toText_of_toNumber {limit : JsValue} {ofText : JsString → Number} {n : Number}
    (converted : limit.toNumber ofText = .ok n) : ∃ text, limit.toText = .ok text := by
  cases limit with
  | symbol => cases converted
  | array items =>
    obtain ⟨text, told, -⟩ := bind_ok converted
    exact ⟨text, told⟩
  | object props =>
    obtain ⟨text, told, -⟩ := bind_ok converted
    exact ⟨text, told⟩
  | foreign instanceOf text json =>
    obtain ⟨text, told, -⟩ := bind_ok converted
    exact ⟨text, told⟩
  | _ => exact ⟨_, rfl⟩

theorem perTransactionReasons_nil_iff (valid : amountValid intent = true) :
    perTransactionReasons platform intent policy = .ok [] ↔
      platform.exceeds intent.amount.amountMinor policy.limits.perTransactionMinor = .ok false := by
  rw [perTransactionReasons, valid]
  by_cases absent : isUndefined policy.limits.perTransactionMinor = true
  · rw [absent, (compared_absent absent _).1]
    exact iff_of_true rfl rfl
  · rw [Bool.not_eq_true] at absent
    rw [absent]
    cases compared : platform.exceeds intent.amount.amountMinor policy.limits.perTransactionMinor with
    | error thrown => exact iff_of_false nofun nofun
    | ok exceeded =>
      obtain ⟨n, converted, -⟩ := bind_ok compared
      obtain ⟨text, told⟩ := toText_of_toNumber converted
      simp only [Bool.not_true, Bool.false_or, Bool.false_eq_true, if_false, ok_bind, told]
      cases exceeded with
      | false => exact iff_of_true rfl rfl
      | true => exact iff_of_false nofun nofun

theorem approvalDecision_allow_iff : (∃ result, approvalDecision platform intent policy = .ok result ∧
    result.decision = .allow) ↔ policy.approval.always = false ∧
      platform.reaches intent.amount.amountMinor policy.approval.aboveMinor = .ok false := by
  unfold approvalDecision
  cases always : policy.approval.always with
  | true =>
    simp only [if_true]
    refine iff_of_false ?_ nofun
    rintro ⟨result, decided, allowed⟩
    cases decided
    cases allowed
  | false =>
    simp only [Bool.false_eq_true, if_false, true_and]
    by_cases absent : isUndefined policy.approval.aboveMinor = true
    · rw [if_pos absent, (compared_absent absent _).2]
      exact iff_of_true ⟨_, rfl, rfl⟩ rfl
    · rw [if_neg absent]
      cases compared : platform.reaches intent.amount.amountMinor policy.approval.aboveMinor with
      | error thrown =>
        refine iff_of_false ?_ nofun
        rintro ⟨result, decided, -⟩
        cases decided
      | ok reached =>
        obtain ⟨n, converted, -⟩ := bind_ok compared
        obtain ⟨text, told⟩ := toText_of_toNumber converted
        simp only [ok_bind]
        cases reached with
        | false => exact iff_of_true ⟨_, rfl, rfl⟩ rfl
        | true =>
          rw [if_pos rfl, told, ok_bind]
          refine iff_of_false ?_ nofun
          rintro ⟨result, decided, allowed⟩
          cases decided
          cases allowed

/-- What an evaluation has compared before it allows. -/
theorem compared_of_allowed (decided : evaluation platform answer intent policy countsMerchants = .ok result)
    (allowed : result.decision = .allow) : amountValid intent = true ∧
      platform.exceeds intent.amount.amountMinor policy.limits.perTransactionMinor = .ok false ∧
      platform.reaches intent.amount.amountMinor policy.approval.aboveMinor = .ok false := by
  obtain ⟨reasons, advice, ruled, -, decided⟩ := evaluation_ok decided
  by_cases some_reason : reasons ++ advice ≠ []
  · rw [if_pos some_reason] at decided
    cases decided
    cases allowed
  · rw [if_neg some_reason] at decided
    rw [not_not, List.append_eq_nil_iff] at some_reason
    obtain ⟨networks, amounts, -, capped, whole⟩ := staticReasons_ok ruled
    rw [some_reason.1] at whole
    simp only [List.nil_eq, List.append_eq_nil_iff] at whole
    obtain ⟨⟨⟨⟨⟨⟨⟨amount, -⟩, -⟩, -⟩, -⟩, -⟩, -⟩, rfl⟩ := whole
    have valid : amountValid intent = true := by
      by_contra invalid
      rw [Bool.not_eq_true] at invalid
      rw [amountReasons, invalid] at amount
      cases amount
    exact ⟨valid, (perTransactionReasons_nil_iff valid).mp capped,
      (approvalDecision_allow_iff.mp ⟨result, decided, allowed⟩).2⟩

/-- A policy of two limits, and a payment of some amount. -/
def limited (perTransactionMinor aboveMinor : JsValue) : SpendPolicy :=
  { Vaduno.Sample.policy with
    limits := { Vaduno.Sample.policy.limits with perTransactionMinor := perTransactionMinor }
    approval := ⟨aboveMinor, false⟩ }

def paying (amountMinor : Number) : PaymentIntent :=
  { Vaduno.Sample.intent "i-1" with amount := ⟨amountMinor, "USD"⟩ }

/-- Nothing but the two comparisons stands between such a payment and its approval. -/
theorem limited_allows {amountMinor : Number} {perTransactionMinor aboveMinor : JsValue}
    (valid : amountValid (paying amountMinor) = true)
    (within : platform.exceeds amountMinor perTransactionMinor = .ok false)
    (below : platform.reaches amountMinor aboveMinor = .ok false) : ∃ result,
      evaluation platform Vaduno.Sample.outside (paying amountMinor) (limited perTransactionMinor aboveMinor) true =
        .ok result ∧ result.decision = .allow := by
  have amount : amountReasons (paying amountMinor) = [] := by
    rw [amountReasons, valid]
    rfl
  have currency : currencyReasons platform (paying amountMinor) (limited perTransactionMinor aboveMinor) = [] := by
    rw [currencyReasons]
    exact if_neg (by simp [paying, limited, Vaduno.Sample.policy])
  have categories : categoryReasons platform (paying amountMinor) (limited perTransactionMinor aboveMinor) = [] := by
    simp [categoryReasons, paying, limited, Vaduno.Sample.intent, Vaduno.Sample.policy, reasonIf]
  have networks : networkReasons platform (paying amountMinor) (limited perTransactionMinor aboveMinor) = .ok [] := rfl
  have capped : perTransactionReasons platform (paying amountMinor) (limited perTransactionMinor aboveMinor) = .ok [] :=
    (perTransactionReasons_nil_iff valid).mpr within
  have ruled : ∀ nowMs, staticReasons platform (paying amountMinor) (limited perTransactionMinor aboveMinor) nowMs =
      .ok [] := by
    intro nowMs
    rw [staticReasons, amount, currency, networks, ok_bind, capped, ok_bind, categories]
    rfl
  have approved : ∃ result, approvalDecision platform (paying amountMinor) (limited perTransactionMinor aboveMinor) =
      .ok result ∧ result.decision = .allow := approvalDecision_allow_iff.mpr ⟨rfl, below⟩
  obtain ⟨result, decided, allowed⟩ := approved
  refine ⟨result, ?_, allowed⟩
  rw [evaluation_eq, ruled, ok_bind]
  exact decided

/-- No policy of two limits allows a payment of some amount. -/
def NeverAllowed (platform : Platform) (amountMinor : Number) (perTransactionMinor aboveMinor : JsValue) : Prop :=
  ∀ answer intent policy countsMerchants result, evaluation platform answer intent policy countsMerchants = .ok result →
    intent.amount.amountMinor = amountMinor → policy.limits.perTransactionMinor = perTransactionMinor →
    policy.approval.aboveMinor = aboveMinor → result.decision ≠ .allow

/-- Nothing is allowed if and only if the amount is none, or one of the comparisons says so or throws. -/
theorem neverAllowed_iff {amountMinor : Number} {perTransactionMinor aboveMinor : JsValue} :
    NeverAllowed platform amountMinor perTransactionMinor aboveMinor ↔
      amountValid (paying amountMinor) = false ∨ platform.exceeds amountMinor perTransactionMinor ≠ .ok false ∨
        platform.reaches amountMinor aboveMinor ≠ .ok false := by
  constructor
  · intro never
    by_contra compared
    simp only [not_or, Bool.not_eq_false, not_not] at compared
    obtain ⟨valid, within, below⟩ := compared
    obtain ⟨result, decided, allowed⟩ := limited_allows valid within below
    exact never _ _ _ _ _ decided rfl rfl rfl allowed
  · rintro refused answer intent policy countsMerchants result decided rfl rfl rfl allowed
    obtain ⟨valid, within, below⟩ := compared_of_allowed decided allowed
    rcases refused with invalid | exceeded | reached
    · rw [show amountValid (paying intent.amount.amountMinor) = amountValid intent from rfl, valid] at invalid
      cases invalid
    · exact exceeded within
    · exact reached below

end Compared
end Vaduno.Policy
