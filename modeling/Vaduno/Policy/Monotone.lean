import Vaduno.Policy.Limits
import Vaduno.Policy.Networks

/-! Stricter policies. A policy that limits more than another decides no more leniently and still reports
what the other denies for, as long as what is malformed under the one is not repaired under the other. -/
namespace Vaduno.Policy
open Ecma Enforce Program

/-! ### What makes a policy stricter -/

/-- How strict a decision is. -/
def strictness : PolicyDecision → ℕ
  | .allow => 0
  | .requireApproval => 1
  | .deny => 2

theorem strictness_le_deny (decision : PolicyDecision) : strictness decision ≤ strictness .deny := by
  cases decision <;> decide

/-- An allow list is added, or entries are taken from it. -/
def Narrowed {α : Type} (old new : Option (List α)) : Prop :=
  ∀ entries, old = some entries → ∃ fewer, new = some fewer ∧ fewer ⊆ entries

/-- A block list is added, or entries are added to it. -/
def Widened {α : Type} (old new : Option (List α)) : Prop :=
  ∀ entries, old = some entries → ∃ more, new = some more ∧ entries ⊆ more

/-- A number is the same or a smaller one. -/
def AtMost (old new : JsValue) : Prop := new = old ∨ ∃ m n : Number, old = .number n ∧ new = .number m ∧ m ≤ n

/-- A limit is added or lowered. -/
def Lowered (old new : JsValue) : Prop := isUndefined old = true ∨ AtMost old new

/-- Count limits are added or their counts lowered. -/
def CountsLowered (old new : JsValue) : Prop :=
  ∀ limit ∈ countLimits old, ∃ lower ∈ countLimits new, lower = limit ∨
    member "perSeconds" lower = member "perSeconds" limit ∧ AtMost (member "count" limit) (member "count" lower)

structure NamesStricter (old new : NameLists) : Prop where
  allow : Narrowed old.allow new.allow
  block : Widened old.block new.block

/-- The policy `q` is the policy `p` with limits, windows, block entries, network constraints, an
approval threshold or allow lists added, numbers lowered, or entries taken from allow lists. -/
structure Stricter (p q : SpendPolicy) : Prop where
  currency : q.currency = p.currency
  expiresAt : q.expiresAt = p.expiresAt
  perTransaction : Lowered p.limits.perTransactionMinor q.limits.perTransactionMinor
  perDay : Lowered p.limits.perDayMinor q.limits.perDayMinor
  perWeek : Lowered p.limits.perWeekMinor q.limits.perWeekMinor
  perMonth : Lowered p.limits.perMonthMinor q.limits.perMonthMinor
  transactions : CountsLowered p.velocity.maxTransactions q.velocity.maxTransactions
  perMerchant : CountsLowered p.velocity.maxTransactionsPerMerchant q.velocity.maxTransactionsPerMerchant
  merchants : NamesStricter p.merchants q.merchants
  categories : NamesStricter p.categories q.categories
  networksAllow : Narrowed p.networks.allow q.networks.allow
  networksBlock : Widened p.networks.block q.networks.block
  rails : Narrowed p.rails q.rails
  above : Lowered p.approval.aboveMinor q.approval.aboveMinor
  always : p.approval.always = true → q.approval.always = true

theorem Narrowed.refl {α : Type} (list : Option (List α)) : Narrowed list list :=
  fun entries held => ⟨entries, held, List.Subset.refl _⟩

theorem Widened.refl {α : Type} (list : Option (List α)) : Widened list list :=
  fun entries held => ⟨entries, held, List.Subset.refl _⟩

theorem Lowered.refl (limit : JsValue) : Lowered limit limit := .inr (.inl rfl)

theorem CountsLowered.refl (limits : JsValue) : CountsLowered limits limits :=
  fun limit listed => ⟨limit, listed, .inl rfl⟩

theorem Stricter.refl (p : SpendPolicy) : Stricter p p where
  currency := rfl
  expiresAt := rfl
  perTransaction := .refl _
  perDay := .refl _
  perWeek := .refl _
  perMonth := .refl _
  transactions := .refl _
  perMerchant := .refl _
  merchants := ⟨.refl _, .refl _⟩
  categories := ⟨.refl _, .refl _⟩
  networksAllow := .refl _
  networksBlock := .refl _
  rails := .refl _
  above := .refl _
  always := id

/-- The entries of the network lists. -/
def networkEntries (policy : SpendPolicy) : List JsValue :=
  policy.networks.allow.getD [] ++ policy.networks.block.getD []

/-- Every window can be enforced. -/
def WindowsWellFormed (policy : SpendPolicy) : Prop := ∀ w ∈ policyWindows policy, WellFormed w

/-- Every network entry names a network. -/
def NetworksWellFormed (platform : Platform) (policy : SpendPolicy) : Prop :=
  ∀ entry ∈ networkEntries policy, (normNetwork platform entry).isSome = true

/-! ### The rules that need no history -/

/-- The codes that are reported. -/
def codes (reasons : List PolicyReason) : List JsString := reasons.map PolicyReason.code

theorem codes_append {a b a' b' : List PolicyReason} (left : codes a ⊆ codes a') (right : codes b ⊆ codes b') :
    codes (a ++ b) ⊆ codes (a' ++ b') := by
  rw [codes, codes, List.map_append, List.map_append, List.append_subset]
  exact ⟨List.subset_append_of_subset_left _ left, List.subset_append_of_subset_right _ right⟩

/-- A rule that is violated whenever another one is reports whatever the other does. -/
theorem codes_reasonIf {violated violated' : Bool} (weaker : violated = true → violated' = true)
    (code message message' : JsString) :
    codes (reasonIf violated code message) ⊆ codes (reasonIf violated' code message') := by
  cases violated with
  | false => exact List.nil_subset _
  | true =>
    rw [weaker rfl]
    exact List.Subset.refl _

theorem map_ok {α β : Type} {f : α → β} {ran : Throwing α} {b : β} (mapped : ran.map f = .ok b) :
    ∃ a, ran = .ok a ∧ f a = b := by
  cases ran with
  | error thrown => cases mapped
  | ok a => exact ⟨a, rfl, Except.ok.inj mapped⟩

section Stricter
variable {platform : Platform} {intent : PaymentIntent} {p q : SpendPolicy}

theorem any_widened {α : Type} {old new : Option (List α)} (wider : Widened old new) {f : α → Bool}
    (found : (old.getD []).any f = true) : (new.getD []).any f = true := by
  cases held : old with
  | none =>
    rw [held] at found
    cases found
  | some entries =>
    obtain ⟨more, rfl, kept⟩ := wider entries held
    rw [held] at found
    obtain ⟨entry, member, same⟩ := List.any_eq_true.mp found
    exact List.any_eq_true.mpr ⟨entry, kept member, same⟩

/-- An allow list reports what a narrower one reports as well, if it does so where both are there. -/
theorem codes_narrowed {α : Type} {old new : Option (List α)} (narrower : Narrowed old new) {a b : List PolicyReason}
    (absent : old = none → a = [])
    (listed : ∀ entries fewer, old = some entries → new = some fewer → fewer ⊆ entries → codes a ⊆ codes b) :
    codes a ⊆ codes b := by
  cases held : old with
  | none =>
    rw [absent held]
    exact List.nil_subset _
  | some entries =>
    obtain ⟨fewer, held', taken⟩ := narrower entries held
    exact listed entries fewer held held' taken

theorem not_any_of_subset {α : Type} {f : α → Bool} {a b : List α} (taken : b ⊆ a) (unmatched : (!a.any f) = true) :
    (!b.any f) = true := by
  rw [Bool.not_eq_true', List.any_eq_false] at unmatched ⊢
  exact fun entry member => unmatched entry (taken member)

theorem not_contains_of_subset {f : JsString → JsString} {a b : List JsString} (taken : b ⊆ a) {name : JsString}
    (unlisted : (!(a.map f).contains name) = true) : (!(b.map f).contains name) = true := by
  simp only [Bool.not_eq_true', List.contains_eq_mem, decide_eq_false_iff_not] at unlisted ⊢
  exact fun listed => unlisted (List.map_subset f taken listed)

theorem codes_merchants (stricter : NamesStricter p.merchants q.merchants) :
    codes (merchantReasons platform intent p) ⊆ codes (merchantReasons platform intent q) := by
  unfold merchantReasons
  refine codes_append (codes_append ?_ ?_) ?_
  · refine codes_reasonIf ?_ _ _ _
    simp only [Bool.and_eq_true]
    exact And.imp_left (any_widened stricter.block)
  · exact codes_reasonIf (any_widened stricter.block) _ _ _
  · refine codes_narrowed stricter.allow (fun absent => by rw [absent]) ?_
    intro entries fewer held held' taken
    rw [held, held']
    exact codes_reasonIf (not_any_of_subset taken) _ _ _

theorem codes_rails (narrower : Narrowed p.rails q.rails) :
    codes (railReasons platform intent p) ⊆ codes (railReasons platform intent q) := by
  unfold railReasons
  refine codes_narrowed narrower (fun absent => by rw [absent]) ?_
  intro entries fewer held held' taken
  rw [held, held']
  exact codes_reasonIf (not_contains_of_subset taken) _ _ _

theorem codes_categories (stricter : NamesStricter p.categories q.categories) :
    codes (categoryReasons platform intent p) ⊆ codes (categoryReasons platform intent q) := by
  unfold categoryReasons
  refine codes_append ?_ ?_
  · refine codes_reasonIf ?_ _ _ _
    simp only [Bool.and_eq_true]
    refine And.imp_right fun listed => ?_
    rw [List.contains_eq_mem, decide_eq_true_eq] at listed ⊢
    cases held : p.categories.block with
    | none =>
      rw [held] at listed
      cases listed
    | some entries =>
      obtain ⟨more, held', kept⟩ := stricter.block entries held
      rw [held] at listed
      rw [held']
      exact List.map_subset _ kept listed
  · refine codes_narrowed stricter.allow (fun absent => by rw [absent]) ?_
    intro entries fewer held held' taken
    rw [held, held']
    refine codes_reasonIf ?_ _ _ _
    simp only [Bool.or_eq_true]
    exact Or.imp_right (not_contains_of_subset taken)

theorem codes_expiry (same : q.expiresAt = p.expiresAt) (nowMs : Number) :
    codes (expiryReasons platform p nowMs) ⊆ codes (expiryReasons platform q nowMs) := by
  unfold expiryReasons
  rw [same]
  cases p.expiresAt with
  | none => exact List.Subset.refl _
  | some expiresAt =>
    dsimp only
    by_cases unparsed : (platform.dateParse expiresAt).isNaN = true
    · rw [if_pos unparsed, if_pos unparsed]
      exact List.Subset.refl _
    · rw [if_neg unparsed, if_neg unparsed]
      exact codes_reasonIf id _ _ _

theorem codes_currency (same : q.currency = p.currency) :
    codes (currencyReasons platform intent p) ⊆ codes (currencyReasons platform intent q) := by
  unfold currencyReasons
  rw [same]
  exact List.Subset.refl _

/-- A limit that is exceeded is exceeded when it is lowered, and so it is reached. -/
theorem compared_lowered {old new : JsValue} (lowered : Lowered old new) (amount : Number) :
    (platform.exceeds amount old = .ok true → platform.exceeds amount new = .ok true) ∧
      (platform.reaches amount old = .ok true → platform.reaches amount new = .ok true) := by
  rcases lowered with absent | rfl | ⟨m, n, rfl, rfl, below⟩
  · rw [(compared_absent absent amount).1, (compared_absent absent amount).2]
    exact ⟨nofun, nofun⟩
  · exact ⟨id, id⟩
  · simp only [Platform.exceeds_number, Platform.reaches_number, Except.ok.injEq, decide_eq_true_eq]
    exact ⟨Number.lt_of_le_of_lt below, Number.le_trans below⟩

theorem perTransactionReasons_ok (valid : amountValid intent = true) {reasons : List PolicyReason}
    (ran : perTransactionReasons platform intent p = .ok reasons) : ∃ exceeded,
      platform.exceeds intent.amount.amountMinor p.limits.perTransactionMinor = .ok exceeded ∧
      codes reasons = if exceeded then [encode "PER_TXN_LIMIT_EXCEEDED"] else [] := by
  rw [perTransactionReasons, valid] at ran
  by_cases absent : isUndefined p.limits.perTransactionMinor = true
  · rw [absent] at ran
    cases ran
    exact ⟨false, (compared_absent absent _).1, rfl⟩
  · rw [Bool.not_eq_true] at absent
    rw [absent] at ran
    obtain ⟨exceeded, compared, ran⟩ := bind_ok ran
    obtain ⟨text, -, ran⟩ := bind_ok ran
    cases ran
    refine ⟨exceeded, compared, ?_⟩
    cases exceeded with
    | true => rfl
    | false => rfl

theorem codes_perTransaction (lowered : Lowered p.limits.perTransactionMinor q.limits.perTransactionMinor)
    {old new : List PolicyReason} (capped : perTransactionReasons platform intent p = .ok old)
    (capped' : perTransactionReasons platform intent q = .ok new) : codes old ⊆ codes new := by
  cases valid : amountValid intent with
  | false =>
    rw [perTransactionReasons, valid] at capped
    cases capped
    exact List.nil_subset _
  | true =>
    obtain ⟨exceeded, compared, reported⟩ := perTransactionReasons_ok valid capped
    obtain ⟨exceeded', compared', reported'⟩ := perTransactionReasons_ok valid capped'
    rw [reported, reported']
    cases exceeded with
    | false => exact List.nil_subset _
    | true =>
      have still := (compared_lowered lowered _).1 compared
      rw [compared'] at still
      cases still
      exact List.Subset.refl _

theorem unusable_nil (wellFormed : NetworksWellFormed platform p) :
    List.filter (fun n => (normNetwork platform n).isNone)
      (p.networks.allow.getD [] ++ p.networks.block.getD []) = [] := by
  refine List.filter_eq_nil_iff.mpr fun entry member => ?_
  rw [Bool.not_eq_true, Option.isNone_eq_false_iff]
  exact wellFormed entry member

theorem codes_networks (allow : Narrowed p.networks.allow q.networks.allow)
    (block : Widened p.networks.block q.networks.block) (wellFormed : NetworksWellFormed platform p)
    (wellFormed' : NetworksWellFormed platform q) {old new : List PolicyReason}
    (ruled : networkReasons platform intent p = .ok old) (ruled' : networkReasons platform intent q = .ok new) :
    codes old ⊆ codes new := by
  rw [networkReasons] at ruled ruled'
  by_cases free : (p.networks.allow.isNone && p.networks.block.isNone) = true
  · rw [if_pos free] at ruled
    cases ruled
    exact List.nil_subset _
  have free' : ¬(q.networks.allow.isNone && q.networks.block.isNone) = true := by
    rw [Bool.and_eq_true, Option.isNone_iff_eq_none, Option.isNone_iff_eq_none] at free ⊢
    rintro ⟨noAllow, noBlock⟩
    refine free ⟨?_, ?_⟩
    · cases held : p.networks.allow with
      | none => rfl
      | some entries =>
        obtain ⟨fewer, held', -⟩ := allow entries held
        rw [noAllow] at held'
        cases held'
    · cases held : p.networks.block with
      | none => rfl
      | some entries =>
        obtain ⟨more, held', -⟩ := block entries held
        rw [noBlock] at held'
        cases held'
  rw [if_neg free] at ruled
  rw [if_neg free'] at ruled'
  dsimp only at ruled ruled'
  rw [if_neg (not_not.mpr (unusable_nil wellFormed))] at ruled
  rw [if_neg (not_not.mpr (unusable_nil wellFormed'))] at ruled'
  rw [← stated] at ruled ruled'
  cases normal : normNetwork platform (stated intent) with
  | none =>
    rw [normal] at ruled ruled'
    dsimp only at ruled ruled'
    split_ifs at ruled ruled'
    · obtain ⟨entry, -, ruled⟩ := bind_ok ruled
      obtain ⟨entry', -, ruled'⟩ := bind_ok ruled'
      cases ruled
      cases ruled'
      exact List.Subset.refl _
    · obtain ⟨entry, -, ruled⟩ := bind_ok ruled
      obtain ⟨entry', -, ruled'⟩ := bind_ok ruled'
      cases ruled
      cases ruled'
      exact List.Subset.refl _
  | some network =>
    rw [normal] at ruled ruled'
    cases ruled
    cases ruled'
    refine codes_append (codes_reasonIf (any_widened block) _ _ _) ?_
    refine codes_narrowed allow (fun absent => by rw [absent]) ?_
    intro entries fewer held held' taken
    rw [held, held']
    exact codes_reasonIf (not_any_of_subset taken) _ _ _

/-- Every code that is reported under a policy without its history is reported under a stricter one. -/
theorem codes_static (stricter : Stricter p q) (wellFormed : NetworksWellFormed platform p)
    (wellFormed' : NetworksWellFormed platform q) {nowMs : Number} {old new : List PolicyReason}
    (ruled : staticReasons platform intent p nowMs = .ok old)
    (ruled' : staticReasons platform intent q nowMs = .ok new) : codes old ⊆ codes new := by
  obtain ⟨networks, amounts, named, capped, rfl⟩ := staticReasons_ok ruled
  obtain ⟨networks', amounts', named', capped', rfl⟩ := staticReasons_ok ruled'
  refine codes_append (codes_append (codes_append (codes_append (codes_append (codes_append (codes_append ?_ ?_) ?_) ?_)
    ?_) ?_) ?_) ?_
  · exact List.Subset.refl _
  · exact codes_expiry stricter.expiresAt nowMs
  · exact codes_currency stricter.currency
  · exact codes_rails stricter.rails
  · exact codes_networks stricter.networksAllow stricter.networksBlock wellFormed wellFormed' named named'
  · exact codes_merchants stricter.merchants
  · exact codes_categories stricter.categories
  · exact codes_perTransaction stricter.perTransaction capped capped'

/-! ### The windows -/

/-- The same window with its cap or its count lowered. -/
structure WindowStricter (w w' : SpendWindow) : Prop where
  code : w'.code = w.code
  windowMs : w'.windowMs = w.windowMs
  dimension : w'.dimension = w.dimension
  cap : AtMost w.capMinor w'.capMinor
  count : AtMost w.maxCount w'.maxCount

theorem amountWindow_stricter {old new : JsValue} (lowered : Lowered old new) {windowMs : Number} {code : JsString}
    {w : SpendWindow} (member : w ∈ amountWindow old windowMs code) :
    ∃ w' ∈ amountWindow new windowMs code, WindowStricter w w' := by
  rw [amountWindow] at member
  split_ifs at member with absent
  · cases member
  · obtain rfl := List.mem_singleton.mp member
    have kept := lowered.resolve_left absent
    have present : ¬isUndefined new = true := by
      rcases kept with rfl | ⟨m, n, rfl, rfl, -⟩
      · exact absent
      · exact Bool.false_ne_true
    rw [amountWindow, if_neg present]
    exact ⟨_, List.mem_singleton.mpr rfl, rfl, rfl, rfl, kept, .inl rfl⟩

theorem atMost_number {old new : JsValue} (lower : AtMost old new) :
    AtMost (.number (numOrNaN old)) (.number (numOrNaN new)) := by
  rcases lower with rfl | ⟨m, n, rfl, rfl, below⟩
  · exact .inl rfl
  · exact .inr ⟨m, n, rfl, rfl, below⟩

theorem countWindows_stricter {old new : JsValue} (lowered : CountsLowered old new) {code : JsString}
    {dimension : JsValue} {w : SpendWindow} (member : w ∈ (countLimits old).map (countWindow code dimension)) :
    ∃ w' ∈ (countLimits new).map (countWindow code dimension), WindowStricter w w' := by
  obtain ⟨limit, listed, rfl⟩ := List.mem_map.mp member
  obtain ⟨lower, listed', rfl | ⟨seconds, counts⟩⟩ := lowered limit listed
  · exact ⟨_, List.mem_map_of_mem listed', rfl, rfl, rfl, .inl rfl, .inl rfl⟩
  · refine ⟨_, List.mem_map_of_mem listed', rfl, ?_, rfl, .inl rfl, atMost_number counts⟩
    rw [countWindow, countWindow, seconds]

theorem policyWindows_stricter (stricter : Stricter p q) {w : SpendWindow} (member : w ∈ policyWindows p) :
    ∃ w' ∈ policyWindows q, WindowStricter w w' := by
  simp only [policyWindows, List.mem_append] at member
  obtain (((day | week) | month) | whole) | merchant := member
  · obtain ⟨w', listed, lower⟩ := amountWindow_stricter stricter.perDay day
    exact ⟨w', by simp [policyWindows, listed], lower⟩
  · obtain ⟨w', listed, lower⟩ := amountWindow_stricter stricter.perWeek week
    exact ⟨w', by simp [policyWindows, listed], lower⟩
  · obtain ⟨w', listed, lower⟩ := amountWindow_stricter stricter.perMonth month
    exact ⟨w', by simp [policyWindows, listed], lower⟩
  · obtain ⟨w', listed, lower⟩ := countWindows_stricter stricter.transactions whole
    refine ⟨w', ?_, lower⟩
    rw [policyWindows, List.mem_append, List.mem_append]
    exact .inl (.inr listed)
  · obtain ⟨w', listed, lower⟩ := countWindows_stricter stricter.perMerchant merchant
    refine ⟨w', ?_, lower⟩
    rw [policyWindows, List.mem_append]
    exact .inr listed

theorem AtMost.isUndefined_eq {old new : JsValue} (lower : AtMost old new) : isUndefined new = isUndefined old := by
  rcases lower with rfl | ⟨m, n, rfl, rfl, -⟩
  · rfl
  · rfl

/-- What goes past a limit goes past a lower one. -/
theorem AtMost.past {old new : JsValue} (lower : AtMost old new) {n : Number} (past : checkedNumber old < n) :
    checkedNumber new < n := by
  rcases lower with rfl | ⟨m, n, rfl, rfl, below⟩
  · exact past
  · exact Number.lt_of_le_of_lt below past

variable {answer : (op : Op) → op.Answer} {countsMerchants : Bool} {nowMs : Number}

/-- What one window advises, by its kind. -/
theorem advisedBy_eq (w : SpendWindow) : advisedBy platform answer intent p countsMerchants nowMs w =
    if !isUndefined w.capMinor && !amountValid intent then .ok []
    else platform.toISOString (nowMs - checkedNumber w.windowMs) >>= fun since =>
      if perMerchant w then
        if !countsMerchants then .ok []
        else answer (.merchantCountSince intent.agentId (merchantKeyOf platform intent.merchant) since p.currency) >>=
          fun count => .ok (merchantWindowReasons w count)
      else answer (.totalsSince intent.agentId since p.currency) >>= fun totals =>
        .ok (windowReasons intent w totals) := by
  rw [advisedBy, windowAdvice]
  by_cases skipped : (!isUndefined w.capMinor && !amountValid intent) = true
  · rw [if_pos skipped, if_pos skipped]
    rfl
  · rw [if_neg skipped, if_neg skipped, Async.answeredBy_bind, Async.answeredBy_settled]
    refine congrArg _ (funext fun since => ?_)
    by_cases merchant : perMerchant w = true
    · rw [if_pos merchant, if_pos merchant]
      cases countsMerchants with
      | false => rfl
      | true =>
        change Async.answeredBy answer (orThrow _ >>= _) = _
        rw [Async.answeredBy_bind, answeredBy_orThrow]
        rfl
    · rw [if_neg merchant, if_neg merchant]
      change Async.answeredBy answer (orThrow _ >>= _) = _
      rw [Async.answeredBy_bind, answeredBy_orThrow]
      rfl

/-- A window reports what the same window reports under higher numbers. -/
theorem codes_windowReasons {w w' : SpendWindow} (stricter : WindowStricter w w') (totals : SpendTotals) :
    codes (windowReasons intent w totals) ⊆ codes (windowReasons intent w' totals) := by
  rw [windowReasons, windowReasons, stricter.code, stricter.cap.isUndefined_eq, stricter.count.isUndefined_eq]
  refine codes_append (codes_reasonIf ?_ _ _ _) (codes_reasonIf ?_ _ _ _)
  · simp only [Bool.and_eq_true, Bool.or_eq_true, decide_eq_true_eq]
    exact And.imp_right (Or.imp_right stricter.cap.past)
  · simp only [Bool.and_eq_true, decide_eq_true_eq]
    exact And.imp_right stricter.count.past

theorem codes_merchantWindowReasons {w w' : SpendWindow} (stricter : WindowStricter w w') (count : Number) :
    codes (merchantWindowReasons w count) ⊆ codes (merchantWindowReasons w' count) := by
  rw [merchantWindowReasons, merchantWindowReasons, stricter.code, stricter.count.isUndefined_eq]
  refine codes_reasonIf ?_ _ _ _
  simp only [Bool.and_eq_true, decide_eq_true_eq]
  exact And.imp_right stricter.count.past

theorem codes_advised (same : q.currency = p.currency) {w w' : SpendWindow} (stricter : WindowStricter w w')
    {old new : List PolicyReason}
    (advised : advisedBy platform answer intent p countsMerchants nowMs w = .ok old)
    (advised' : advisedBy platform answer intent q countsMerchants nowMs w' = .ok new) : codes old ⊆ codes new := by
  have merchant : perMerchant w' = perMerchant w := by rw [perMerchant, perMerchant, stricter.dimension]
  rw [advisedBy_eq] at advised advised'
  rw [stricter.cap.isUndefined_eq, stricter.windowMs, merchant, same] at advised'
  by_cases skipped : (!isUndefined w.capMinor && !amountValid intent) = true
  · rw [if_pos skipped] at advised
    cases advised
    exact List.nil_subset _
  rw [if_neg skipped] at advised advised'
  obtain ⟨since, started, advised⟩ := bind_ok advised
  rw [started, ok_bind] at advised'
  by_cases keyed : perMerchant w = true
  · rw [if_pos keyed] at advised advised'
    cases countsMerchants with
    | false =>
      cases advised
      exact List.nil_subset _
    | true =>
      obtain ⟨count, counted, advised⟩ := bind_ok advised
      obtain ⟨count', counted', advised'⟩ := bind_ok advised'
      rw [counted] at counted'
      cases counted'
      cases advised
      cases advised'
      exact codes_merchantWindowReasons stricter count
  · rw [if_neg keyed] at advised advised'
    obtain ⟨totals, counted, advised⟩ := bind_ok advised
    obtain ⟨totals', counted', advised'⟩ := bind_ok advised'
    rw [counted] at counted'
    cases counted'
    cases advised
    cases advised'
    exact codes_windowReasons stricter totals

/-- Every code that a window of a policy reports is reported by a window of a stricter one. -/
theorem codes_windows (stricter : Stricter p q) (wellFormed : WindowsWellFormed p) (wellFormed' : WindowsWellFormed q)
    {old new : List PolicyReason} (advised : windowsVerdict platform answer intent p countsMerchants nowMs = .ok old)
    (advised' : windowsVerdict platform answer intent q countsMerchants nowMs = .ok new) : codes old ⊆ codes new := by
  rw [windowsVerdict_of_wellFormed wellFormed] at advised
  rw [windowsVerdict_of_wellFormed wellFormed'] at advised'
  obtain ⟨lists, each, rfl⟩ := map_ok advised
  obtain ⟨lists', each', rfl⟩ := map_ok advised'
  intro code reported
  obtain ⟨reason, given, rfl⟩ := List.mem_map.mp reported
  obtain ⟨list, listed, member⟩ := List.mem_flatten.mp given
  obtain ⟨w, enforced, gave⟩ := of_mem_mapM each listed
  obtain ⟨w', enforced', lower⟩ := policyWindows_stricter stricter enforced
  obtain ⟨list', listed', gave'⟩ := mapM_ok each' enforced'
  obtain ⟨reason', member', same⟩ :=
    List.mem_map.mp (codes_advised stricter.currency lower gave gave' (List.mem_map_of_mem member))
  exact List.mem_map.mpr ⟨reason', List.mem_flatten.mpr ⟨list', listed', member'⟩, same⟩

/-! ### The decision -/

/-- An approval is decided by a comparison that does not throw. -/
theorem reaches_of_approvalDecision {result : PolicyResult}
    (decided : approvalDecision platform intent p = .ok result) (never : p.approval.always = false) :
    ∃ reached, platform.reaches intent.amount.amountMinor p.approval.aboveMinor = .ok reached := by
  by_cases absent : isUndefined p.approval.aboveMinor = true
  · exact ⟨false, (compared_absent absent _).2⟩
  · unfold approvalDecision at decided
    simp only [never, Bool.false_eq_true, if_false, if_neg absent] at decided
    obtain ⟨reached, compared, -⟩ := bind_ok decided
    exact ⟨reached, compared⟩

/-- What asks for approval under a policy does under a stricter one, unless that denies. -/
theorem approval_stricter (stricter : Stricter p q) {old new : PolicyResult}
    (decided : approvalDecision platform intent p = .ok old) (decided' : approvalDecision platform intent q = .ok new) :
    strictness old.decision ≤ strictness new.decision := by
  cases choice : new.decision with
  | deny => exact absurd choice (approvalDecision_not_deny decided')
  | requireApproval =>
    cases choice' : old.decision with
    | deny => exact absurd choice' (approvalDecision_not_deny decided)
    | _ => decide
  | allow =>
    obtain ⟨never, below⟩ := approvalDecision_allow_iff.mp ⟨new, decided', choice⟩
    have never' : p.approval.always = false := by
      by_contra always
      rw [Bool.not_eq_false] at always
      rw [stricter.always always] at never
      cases never
    obtain ⟨reached, compared⟩ := reaches_of_approvalDecision decided never'
    cases reached with
    | true =>
      rw [(compared_lowered stricter.above _).2 compared] at below
      cases below
    | false =>
      obtain ⟨result, decided'', allowed⟩ := approvalDecision_allow_iff.mpr ⟨never', compared⟩
      rw [decided] at decided''
      cases decided''
      rw [allowed]

/-- Every code of a denial is one of a stricter policy's, where nothing is malformed under either. -/
theorem codes_stricter (stricter : Stricter p q) (windows : WindowsWellFormed p) (windows' : WindowsWellFormed q)
    (networks : NetworksWellFormed platform p) (networks' : NetworksWellFormed platform q)
    {reasons reasons' advice advice' : List PolicyReason}
    (ruled : staticReasons platform intent p nowMs = .ok reasons)
    (ruled' : staticReasons platform intent q nowMs = .ok reasons')
    (advised : windowsVerdict platform answer intent p countsMerchants nowMs = .ok advice)
    (advised' : windowsVerdict platform answer intent q countsMerchants nowMs = .ok advice') :
    codes (reasons ++ advice) ⊆ codes (reasons' ++ advice') :=
  codes_append (codes_static stricter networks networks' ruled ruled')
    (codes_windows stricter windows windows' advised advised')

theorem codes_eq_nil {reasons : List PolicyReason} (none : codes reasons ⊆ codes []) : reasons = [] :=
  List.map_eq_nil_iff.mp (List.subset_nil.mp none)

/-- A network entry that names none denies. -/
theorem networks_of_nil (ruled : networkReasons platform intent p = .ok []) : NetworksWellFormed platform p := by
  intro entry member
  rw [networkReasons] at ruled
  by_cases free : (p.networks.allow.isNone && p.networks.block.isNone) = true
  · rw [Bool.and_eq_true, Option.isNone_iff_eq_none, Option.isNone_iff_eq_none] at free
    rw [networkEntries, free.1, free.2] at member
    cases member
  rw [if_neg free] at ruled
  dsimp only at ruled
  by_cases unusable : List.filter (fun n => (normNetwork platform n).isNone)
      (p.networks.allow.getD [] ++ p.networks.block.getD []) ≠ []
  · rw [if_pos unusable] at ruled
    obtain ⟨entries, -, ruled⟩ := bind_ok ruled
    cases ruled
  · rw [not_not, List.filter_eq_nil_iff] at unusable
    have named := unusable entry member
    rwa [Bool.not_eq_true, Option.isNone_eq_false_iff] at named

/-- A malformed window denies. -/
theorem windows_of_nil (advised : windowsVerdict platform answer intent p countsMerchants nowMs = .ok []) :
    WindowsWellFormed p := by
  obtain ⟨problem, checked, advised⟩ := bind_ok advised
  cases problem with
  | some reason => cases advised
  | none => exact misconfigured_none_iff.mp checked

/-- Nothing that is malformed under one policy is well-formed under the other. -/
structure Unrepaired (platform : Platform) (p q : SpendPolicy) : Prop where
  windows : WindowsWellFormed q → WindowsWellFormed p
  networks : NetworksWellFormed platform q → NetworksWellFormed platform p

end Stricter

/-- A stricter policy decides at least as strictly, as long as nothing malformed is repaired, wherever both
evaluations decide; and where nothing is malformed, it reports every code that the other denies with. -/
theorem stricter_decides_no_less {platform : Platform} {answer : (op : Op) → op.Answer} {intent : PaymentIntent}
    {p q : SpendPolicy} {countsMerchants : Bool} {old new : PolicyResult} (stricter : Stricter p q)
    (decided : evaluation platform answer intent p countsMerchants = .ok old)
    (decided' : evaluation platform answer intent q countsMerchants = .ok new) :
    (Unrepaired platform p q → strictness old.decision ≤ strictness new.decision) ∧
    (WindowsWellFormed p → WindowsWellFormed q → NetworksWellFormed platform p → NetworksWellFormed platform q →
      old.decision = .deny → codes old.reasons ⊆ codes new.reasons) := by
  obtain ⟨reasons, advice, ruled, advised, decided⟩ := evaluation_ok decided
  obtain ⟨reasons', advice', ruled', advised', decided'⟩ := evaluation_ok decided'
  constructor
  · intro unrepaired
    by_cases refused' : reasons' ++ advice' ≠ []
    · rw [if_pos refused'] at decided'
      cases decided'
      exact strictness_le_deny old.decision
    · rw [if_neg refused'] at decided'
      rw [not_not, List.append_eq_nil_iff] at refused'
      obtain ⟨rfl, rfl⟩ := refused'
      have windows' := windows_of_nil advised'
      have networks' : NetworksWellFormed platform q := by
        obtain ⟨networks, amounts, named, -, whole⟩ := staticReasons_ok ruled'
        simp only [List.nil_eq, List.append_eq_nil_iff] at whole
        obtain ⟨⟨⟨⟨-, rfl⟩, -⟩, -⟩, -⟩ := whole
        exact networks_of_nil named
      have reported := codes_stricter stricter (unrepaired.windows windows') windows' (unrepaired.networks networks')
        networks' ruled ruled' advised advised'
      rw [if_neg (not_not.mpr (codes_eq_nil reported))] at decided
      exact approval_stricter stricter decided decided'
  · intro windows windows' networks networks' denied
    have reported := codes_stricter stricter windows windows' networks networks' ruled ruled' advised advised'
    by_cases refused : reasons ++ advice ≠ []
    · have refused' : reasons' ++ advice' ≠ [] := by
        intro clear
        rw [clear] at reported
        exact refused (codes_eq_nil reported)
      rw [if_pos refused] at decided
      rw [if_pos refused'] at decided'
      cases decided
      cases decided'
      exact reported
    · rw [if_neg refused] at decided
      exact absurd denied (approvalDecision_not_deny decided)

namespace Monotone

/-- A platform that knows the start of one day. -/
def platform : Platform :=
  { Vaduno.Sample.platform with
    toISOString := fun ms =>
      if ms = 1779913600000 then .ok "2026-05-27T20:26:40.000Z" else .error (.error "Invalid time value") }

def perDay (capMinor : Number) : SpendPolicy :=
  { Vaduno.Sample.policy with limits := { Vaduno.Sample.policy.limits with perDayMinor := .number capMinor } }

def onNetworks (allow : List JsValue) : SpendPolicy :=
  { Vaduno.Sample.policy with networks := ⟨some allow, none⟩ }

def counted (perSeconds : Number) : SpendPolicy :=
  { Vaduno.Sample.policy with
    velocity := ⟨.object [("count", .number 5), ("perSeconds", .number perSeconds)], .undefined⟩ }

def onBase : PaymentIntent := { Vaduno.Sample.intent "i-1" with network := some "base" }

def decision (policy : SpendPolicy) : Option PolicyDecision :=
  ((evaluation platform Vaduno.Sample.outside onBase policy true).toOption).map PolicyResult.decision

theorem checked : decision (perDay .posInf) = some .deny ∧ decision (perDay 1000) = some .allow ∧
    decision (perDay 400) = some .deny ∧
    decision (onNetworks [.string "", .string "base"]) = some .deny ∧
    decision (onNetworks [.string "base"]) = some .allow ∧
    decision Vaduno.Sample.policy = some .allow ∧ decision (counted 10000000000000000) = none ∧
    (misconfigured (policyWindows (perDay 1000))).toOption = some none ∧
    (misconfigured (policyWindows (counted 10000000000000000))).toOption = some none := by
  decide +kernel

theorem decided {policy : SpendPolicy} {d : PolicyDecision} (known : decision policy = some d) :
    ∃ result, evaluation platform Vaduno.Sample.outside onBase policy true = .ok result ∧ result.decision = d := by
  obtain ⟨result, ran, same⟩ := Option.map_eq_some_iff.mp known
  exact ⟨result, of_toOption ran, same⟩

theorem perDay_stricter {cap lower : Number} (below : lower ≤ cap) : Stricter (perDay cap) (perDay lower) :=
  { Stricter.refl (perDay cap) with perDay := .inr (.inr ⟨lower, cap, rfl, rfl, below⟩) }

end Monotone

/-- An infinite cap that is lowered to a usable one, and a blank network entry that is taken from an allow
list: what was denied is allowed. A window that is added with a start outside of the calendar: nothing is
decided at all. -/
theorem repaired_policy_lenient :
    (∃ old new, Stricter (Monotone.perDay .posInf) (Monotone.perDay 1000) ∧
      evaluation Monotone.platform Vaduno.Sample.outside Monotone.onBase (Monotone.perDay .posInf) true = .ok old ∧
      evaluation Monotone.platform Vaduno.Sample.outside Monotone.onBase (Monotone.perDay 1000) true = .ok new ∧
      strictness new.decision < strictness old.decision) ∧
    (∃ old new, Stricter (Monotone.onNetworks [.string "", .string "base"]) (Monotone.onNetworks [.string "base"]) ∧
      evaluation Monotone.platform Vaduno.Sample.outside Monotone.onBase
        (Monotone.onNetworks [.string "", .string "base"]) true = .ok old ∧
      evaluation Monotone.platform Vaduno.Sample.outside Monotone.onBase
        (Monotone.onNetworks [.string "base"]) true = .ok new ∧
      strictness new.decision < strictness old.decision) ∧
    Stricter Vaduno.Sample.policy (Monotone.counted 10000000000000000) ∧
    WindowsWellFormed (Monotone.counted 10000000000000000) ∧
    (evaluation Monotone.platform Vaduno.Sample.outside Monotone.onBase
      (Monotone.counted 10000000000000000) true).toOption = none := by
  obtain ⟨infinite, capped, -, blank, named, -, thrown, -, enforced⟩ := Monotone.checked
  obtain ⟨old, ran, denied⟩ := Monotone.decided infinite
  obtain ⟨new, ran', allowed⟩ := Monotone.decided capped
  obtain ⟨old', poisoned, denied'⟩ := Monotone.decided blank
  obtain ⟨new', plain, allowed'⟩ := Monotone.decided named
  refine ⟨⟨old, new, Monotone.perDay_stricter (by decide +kernel), ran, ran', ?_⟩,
    ⟨old', new', ?_, poisoned, plain, ?_⟩, ?_, misconfigured_none_iff.mp (of_toOption enforced), Option.map_eq_none_iff.mp thrown⟩
  · rw [denied, allowed]
    decide
  · refine { Stricter.refl _ with networksAllow := ?_ }
    rintro entries held
    cases held
    exact ⟨_, rfl, List.subset_cons_self _ _⟩
  · rw [denied', allowed']
    decide
  · exact { Stricter.refl Vaduno.Sample.policy with transactions := List.forall_mem_nil _ }

theorem lower_cap_denies : ∃ new,
    evaluation Monotone.platform Vaduno.Sample.outside Monotone.onBase (Monotone.perDay 400) true = .ok new ∧
    strictness .allow ≤ strictness new.decision := by
  obtain ⟨-, capped, lower, -, -, -, -, enforced, -⟩ := Monotone.checked
  obtain ⟨old, ran, allowed⟩ := Monotone.decided capped
  obtain ⟨new, ran', -⟩ := Monotone.decided lower
  have stricter : Stricter (Monotone.perDay 1000) (Monotone.perDay 400) := Monotone.perDay_stricter (by decide +kernel)
  have unrepaired : Unrepaired Monotone.platform (Monotone.perDay 1000) (Monotone.perDay 400) :=
    ⟨fun _ => misconfigured_none_iff.mp (of_toOption enforced), fun _ entry member => by cases member⟩
  have kept := (stricter_decides_no_less stricter ran ran').1 unrepaired
  rw [allowed] at kept
  exact ⟨new, ran', kept⟩

end Vaduno.Policy
