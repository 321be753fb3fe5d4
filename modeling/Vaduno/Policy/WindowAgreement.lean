import Vaduno.Policy.Evaluation
import Vaduno.Sample

/-! The advisory windows and the authoritative ones. The evaluation sums the guard's own history of
executed spend, window by window and through the text of each start; the limiter sums the records of
one budget. Over the same spends the history counts whatever the limiter counts, and besides it the
spends at the very start of a window and those in another spelling of the currency. -/
namespace Vaduno.Policy
open Ecma Enforce Program

/-! ### The guard's own history -/

namespace InMemoryHistory
variable (platform : Platform)

/-- Whether the sums of the history pass over an entry at a start and in a currency. -/
def passesOver (sinceIso currency : JsString) (e : ExecutedSpend) : Bool :=
  decide (e.ms < platform.dateParse sinceIso) ||
    decide (platform.toUpperCase e.currency ≠ platform.toUpperCase currency)

def totalsSince (executed : List ExecutedSpend) (sinceIso currency : JsString) : SpendTotals :=
  executed.foldl (fun totals e =>
    if passesOver platform sinceIso currency e || !e.amountMinor.isSafeInteger then totals
    else ⟨totals.totalMinor + e.amountMinor, totals.count + 1⟩) ⟨0, 0⟩

/-- A keyless entry counts toward every merchant. -/
def merchantCountSince (executed : List ExecutedSpend) (merchantKey sinceIso currency : JsString) :
    Number :=
  executed.foldl (fun count e =>
    if passesOver platform sinceIso currency e ||
      (e.merchantKey.isSome && decide (e.merchantKey ≠ some merchantKey)) then count
    else count + 1) 0

/-- A surrounding with a clock and the guard's own history. -/
def answers (outside : (op : Op) → op.Answer) (nowMs : Number) (executed : List ExecutedSpend) :
    (op : Op) → op.Answer
  | .now => nowMs
  | .totalsSince _ since currency => .ok (totalsSince platform executed since currency)
  | .merchantCountSince _ key since currency =>
    .ok (merchantCountSince platform executed key since currency)
  | op => outside op

end InMemoryHistory

/-- The time value of a date: milliseconds cut to an integer, within the calendar. -/
def timeClip : Number → Option Number
  | .fin d =>
    if |d.val| ≤ 8640000000000000 then
      some ((if 0 ≤ d.val then ⌊d.val⌋ else ⌈d.val⌉ : ℤ) : Number)
    else none
  | _ => none

/-- A date goes into text and back as its time value, and outside the calendar there is no text. -/
structure ClipsAt (platform : Platform) (ms : Number) : Prop where
  within : ∀ t, timeClip ms = some t →
    ∃ text, platform.toISOString ms = .ok text ∧ platform.dateParse text = t
  outside : timeClip ms = none → ∃ thrown, platform.toISOString ms = .error thrown

/-- A payment that went through. The limiter holds it under the currency as the policy spelled it at
the time, the history as the intent did; the evaluation let the two pass as one. -/
structure CommittedSpend (platform : Platform) where
  reservationId : JsString
  ms : Number
  amountMinor : Number
  merchantKey : Option JsString
  currency : JsString
  recordedCurrency : JsString
  amount : IsAmount amountMinor
  spelled : platform.toUpperCase recordedCurrency = platform.toUpperCase currency

namespace CommittedSpend
variable {platform : Platform} (s : CommittedSpend platform)

def executed : ExecutedSpend where
  ms := s.ms
  amountMinor := s.amountMinor
  currency := s.recordedCurrency
  merchantKey := s.merchantKey

def record (scope : JsString) : SpendRecord where
  reservationId := s.reservationId
  scope := scope
  currency := s.currency
  amountMinor := s.amountMinor
  ms := s.ms
  merchantKey := s.merchantKey
  state := .committed

end CommittedSpend

section Agreement
variable (platform : Platform) (outside : (op : Op) → op.Answer) (policy : SpendPolicy)
  (intent : PaymentIntent) (nowMs : Number) (spends : List (CommittedSpend platform))
  (l : MemorySpendLimiter)

/-! ### The two checks, by what they report -/

def surrounding : (op : Op) → op.Answer :=
  InMemoryHistory.answers platform outside nowMs (spends.map CommittedSpend.executed)

/-- What the evaluation comes to over the guard's own history. -/
def evaluated : Throwing PolicyResult :=
  (evaluatePolicy platform intent policy true).answeredBy
    (surrounding platform outside nowMs spends)

/-- What one window contributes to it. -/
def adviceOn (w : SpendWindow) : Throwing (List PolicyReason) :=
  (windowAdvice platform intent policy true nowMs w).answeredBy
    (surrounding platform outside nowMs spends)

/-- The position of the window that the evaluation denies for: the first one whose own reasons are
among those it gives. -/
def deniedWindow : Option ℕ :=
  match evaluated platform outside policy intent nowMs spends with
  | .ok result =>
    if result.decision = .deny then
      (policyWindows policy).findIdx? fun w =>
        match adviceOn platform outside policy intent nowMs spends w with
        | .ok (reason :: _) => result.reasons.contains reason
        | _ => false
    else none
  | .error _ => none

/-- The reservation as the guard asks for it. -/
def reserveRequest : ReserveRequest where
  reservationId := intent.id
  scope := policy.id
  currency := policy.currency
  amountMinor := intent.amount.amountMinor
  nowMs := nowMs
  windows := policyWindows policy
  merchantKey := some (merchantKeyOf platform intent.merchant)

/-- The position of the window that the limiter refuses for. -/
def refusedWindow : Option ℕ :=
  match (l.reserve (reserveRequest platform policy intent nowMs)).1 with
  | .ok (.refused violation) =>
    (policyWindows policy).findIdx? fun w =>
      decide (windowViolation w (l.held policy.id policy.currency) intent.amount.amountMinor nowMs
        (some (merchantKeyOf platform intent.merchant)) = some violation)
  | _ => none

/-! ### The same in exact integers -/

def start (w : SpendWindow) : Number := nowMs - checkedNumber w.windowMs

def otherMerchant (w : SpendWindow) (s : CommittedSpend platform) : Bool :=
  perMerchant w && s.merchantKey.isSome &&
    decide (s.merchantKey ≠ some (merchantKeyOf platform intent.merchant))

/-- The spends after the start of a window, in the policy's own spelling of its currency. -/
def limiterCounts (w : SpendWindow) (s : CommittedSpend platform) : Bool :=
  decide (s.currency = policy.currency) && !decide (s.ms ≤ start nowMs w) &&
    !otherMerchant platform intent w s

/-- The spends from the start of a window on, cut to whole milliseconds, in any spelling. -/
def historyCounts (w : SpendWindow) (s : CommittedSpend platform) : Bool :=
  decide (platform.toUpperCase s.currency = platform.toUpperCase policy.currency) &&
    (match timeClip (start nowMs w) with
      | some since => !decide (s.ms < since)
      | none => false) &&
    !otherMerchant platform intent w s

/-- Over the spends that count, one more payment of `amount` goes past what a window allows. -/
def full (counts : SpendWindow → CommittedSpend platform → Bool) (w : SpendWindow) : Bool :=
  pastLimit w.capMinor
      (Rolling.total (counts w · = true) (·.amountMinor.toInt) spends +
        intent.amount.amountMinor.toInt) ||
    pastLimit w.maxCount (Rolling.total (counts w · = true) (fun _ => 1) spends + 1)

/-- The evaluation spells out the start of a window, or need not. -/
def reachesWindow (w : SpendWindow) : Bool :=
  (!isUndefined w.capMinor && !amountValid intent) || (timeClip (start nowMs w)).isSome

/-- The window is full by the history, where the evaluation sums it at all. -/
def advisedFull (w : SpendWindow) : Bool :=
  (amountValid intent || isUndefined w.capMinor) &&
    full platform intent spends (historyCounts platform policy intent nowMs) w

/-- The evaluation gets through the windows: no rule before them throws, and every start it has to
spell out lies within the calendar. -/
def reachesWindows : Bool :=
  (staticReasons platform intent policy nowMs).isOk &&
    (policyWindows policy).all (reachesWindow intent nowMs)

/-- The limiter gets to the windows: the id is new to it and the amount usable. -/
def limiterReachesWindows : Bool :=
  (l.byId intent.id).isNone && intent.amount.amountMinor.isSafeInteger &&
    !decide (intent.amount.amountMinor < 0)

/-! ### The limiter's side -/

theorem windowCodes {w : SpendWindow} (member : w ∈ policyWindows policy) :
    w.code ∈ [encode "PER_DAY_LIMIT_EXCEEDED", encode "PER_WEEK_LIMIT_EXCEEDED",
      encode "PER_MONTH_LIMIT_EXCEEDED", encode "VELOCITY_EXCEEDED",
      encode "MERCHANT_VELOCITY_EXCEEDED"] := by
  simp only [policyWindows, amountWindow, List.mem_append, List.mem_map] at member
  rcases member with (((day | week) | month) | ⟨limit, -, rfl⟩) | ⟨limit, -, rfl⟩
  · split_ifs at day with absent
    · cases day
    · rw [List.mem_singleton.mp day]
      simp
  · split_ifs at week with absent
    · cases week
    · rw [List.mem_singleton.mp week]
      simp
  · split_ifs at month with absent
    · cases month
    · rw [List.mem_singleton.mp month]
      simp
  · simp [countWindow]
  · simp [countWindow]

theorem violation_code {w : SpendWindow} {existing : List SpendRecord} {violation : Violation}
    (violated : windowViolation w existing amountMinor nowMs (some key) = some violation) :
    violation.code = w.code := by
  unfold windowViolation at violated
  rw [if_neg (by simp)] at violated
  dsimp only at violated
  split_ifs at violated
  · cases violated
    rfl
  · cases violated
    rfl

theorem findIdx?_congr {ι : Type} {p q : ι → Bool} {items : List ι} (same : ∀ i ∈ items, p i = q i) :
    items.findIdx? p = items.findIdx? q := by
  induction items with
  | nil => rfl
  | cons i rest ih =>
    rw [List.findIdx?_cons, List.findIdx?_cons, same i (by simp),
      ih fun j member => same j (List.mem_cons_of_mem i member)]

theorem findIdx?_of_findSome? {ι κ : Type} [DecidableEq κ] {f : ι → Option κ} {items : List ι} {k : κ}
    (first : items.findSome? f = some k) :
    items.findIdx? (fun i => decide (f i = some k)) = items.findIdx? fun i => (f i).isSome := by
  induction items with
  | nil => cases first
  | cons i rest ih =>
    rw [List.findSome?_cons] at first
    rw [List.findIdx?_cons, List.findIdx?_cons]
    cases found : f i with
    | some other =>
      rw [found] at first
      cases first
      simp
    | none =>
      rw [found] at first
      simp [ih first]

/-- The sums of the limiter are over the spends it counts. -/
theorem limiter_total {M : Type} [AddCommMonoid M] (weight : SpendRecord → M) (w : SpendWindow)
    (held : (l.held policy.id policy.currency).Perm
      ((spends.filter (·.currency = policy.currency)).map (·.record policy.id))) :
    Rolling.total (Counted w (some (merchantKeyOf platform intent.merchant)) (start nowMs w)) weight
        (l.held policy.id policy.currency) =
      Rolling.total (limiterCounts platform policy intent nowMs w · = true)
        (fun s => weight (s.record policy.id)) spends := by
  rw [Rolling.total_perm _ _ held, Rolling.total_image, Rolling.total_filter]
  refine Rolling.total_congr _ _ _ fun s _ => ?_
  simp only [Counted, skips, limiterCounts, otherMerchant, CommittedSpend.record]
  grind

/-- The limiter refuses for the first window that its own spends fill. -/
theorem refusedWindow_eq (valid : ∀ w ∈ policyWindows policy, WellFormed w)
    (held : (l.held policy.id policy.currency).Perm
      ((spends.filter (·.currency = policy.currency)).map (·.record policy.id))) :
    refusedWindow platform policy intent nowMs l =
      (policyWindows policy).findIdx? fun w => limiterReachesWindows intent l &&
        full platform intent spends (limiterCounts platform policy intent nowMs) w := by
  have amounts : ∀ r ∈ l.held policy.id policy.currency, IsAmount r.amountMinor := by
    intro r member
    obtain ⟨s, -, rfl⟩ := List.mem_map.mp (held.mem_iff.mp member)
    exact s.amount
  have filled : IsAmount intent.amount.amountMinor → ∀ w ∈ policyWindows policy,
      (windowViolation w (l.held policy.id policy.currency) intent.amount.amountMinor nowMs
          (some (merchantKeyOf platform intent.merchant))).isSome =
        full platform intent spends (limiterCounts platform policy intent nowMs) w := by
    intro amount w member
    rw [windowViolation_isSome (valid w member) amounts amount (by simp), full]
    rw [show nowMs - checkedNumber w.windowMs = start nowMs w from rfl,
      limiter_total platform policy intent nowMs spends l _ w held,
      limiter_total platform policy intent nowMs spends l _ w held]
    rfl
  unfold refusedWindow limiterReachesWindows
  cases found : l.byId intent.id with
  | some r =>
    have known : l.byId (reserveRequest platform policy intent nowMs).reservationId = some r := found
    rw [MemorySpendLimiter.reserve_known known]
    exact (List.findIdx?_eq_none_iff.mpr fun w _ => rfl).symm
  | none =>
    have reserved : (l.reserve (reserveRequest platform policy intent nowMs)).1 =
        (firstViolatedWindow (policyWindows policy) (l.held policy.id policy.currency)
          intent.amount.amountMinor nowMs (some (merchantKeyOf platform intent.merchant))).map
          (MemorySpendLimiter.answerOf (reserveRequest platform policy intent nowMs)) :=
      MemorySpendLimiter.reserve_new found
    rcases firstViolatedWindow_cases valid (l.held policy.id policy.currency)
      intent.amount.amountMinor nowMs (some (merchantKeyOf platform intent.merchant)) with
      ⟨unusable, message, refused⟩ | ⟨usable, checked⟩
    · -- the refusal is of the amount, whose code no window has
      rw [reserved, refused]
      refine (List.findIdx?_eq_none_iff.mpr fun w member => ?_).trans
        (List.findIdx?_eq_none_iff.mpr fun w member => ?_).symm
      · refine decide_eq_false fun violated => ?_
        have code := windowCodes policy member
        rw [← violation_code nowMs violated] at code
        exact absurd (show encode "SPEND_AMOUNT_INVALID" ∈ _ from code) (by decide)
      · rw [Option.isNone_none, Bool.true_and, unusable, Bool.false_and]
    · have amount : IsAmount intent.amount.amountMinor := by
        rw [Bool.and_eq_true, Bool.not_eq_true', decide_eq_false_iff_not] at usable
        exact isAmount_of_checked usable.1 usable.2
      have violated : ∀ w ∈ policyWindows policy, full platform intent spends
          (limiterCounts platform policy intent nowMs) w = (windowViolation w
            (l.held policy.id policy.currency) intent.amount.amountMinor nowMs
            (some (merchantKeyOf platform intent.merchant))).isSome :=
        fun w member => (filled amount w member).symm
      rw [reserved, checked, Option.isNone_none, Bool.true_and, usable]
      simp only [Bool.true_and]
      rw [findIdx?_congr violated]
      cases first : (policyWindows policy).findSome? fun w =>
          windowViolation w (l.held policy.id policy.currency) intent.amount.amountMinor nowMs
            (some (merchantKeyOf platform intent.merchant)) with
      | some violation => exact findIdx?_of_findSome? first
      | none =>
        refine (List.findIdx?_eq_none_iff.mpr fun w member => ?_).symm
        rw [List.findSome?_eq_none_iff.mp first w member]
        rfl

/-! ### The evaluation's side -/

theorem uncapped_of_perMerchant {w : SpendWindow} (member : w ∈ policyWindows policy)
    (merchant : perMerchant w = true) : isUndefined w.capMinor = true := by
  simp only [policyWindows, amountWindow, List.mem_append, List.mem_map] at member
  rcases member with (((day | week) | month) | ⟨limit, -, rfl⟩) | ⟨limit, -, rfl⟩
  · split_ifs at day with absent
    · cases day
    · rw [List.mem_singleton.mp day] at merchant
      cases merchant
  · split_ifs at week with absent
    · cases week
    · rw [List.mem_singleton.mp week] at merchant
      cases merchant
  · split_ifs at month with absent
    · cases month
    · rw [List.mem_singleton.mp month] at merchant
      cases merchant
  · rfl
  · rfl

theorem isSafeInteger_of_isAmount {x : Number} (amount : IsAmount x) : x.isSafeInteger = true := by
  obtain ⟨n, nonneg, narrow, rfl⟩ := amount
  exact Number.isSafeInteger_iff.mpr ⟨n, by rwa [abs_of_nonneg nonneg], rfl⟩

section History
variable {platform} {w : SpendWindow} {since : Number} {text : JsString}
  (clipped : timeClip (start nowMs w) = some since) (parsed : platform.dateParse text = since)
include clipped parsed

theorem passesOver_iff (s : CommittedSpend platform)
    (sameMerchant : otherMerchant platform intent w s = false) :
    InMemoryHistory.passesOver platform text policy.currency s.executed = false ↔
      historyCounts platform policy intent nowMs w s = true := by
  simp only [InMemoryHistory.passesOver, historyCounts, clipped, parsed, CommittedSpend.executed,
    sameMerchant, s.spelled]
  grind

/-- The totals of the history follow the exact sums over the spends it counts. -/
theorem totalsSince_tracks (scopeWide : perMerchant w = false) :
    let totals := InMemoryHistory.totalsSince platform (spends.map CommittedSpend.executed) text
      policy.currency
    totals.totalMinor.Tracks (Rolling.total (historyCounts platform policy intent nowMs w · = true)
        (·.amountMinor.toInt) spends) ∧
      totals.count.Tracks (Rolling.total (historyCounts platform policy intent nowMs w · = true)
        (fun _ => 1) spends) := by
  have counts : ∀ s : CommittedSpend platform,
      InMemoryHistory.passesOver platform text policy.currency s.executed = false ↔
        historyCounts platform policy intent nowMs w s = true :=
    fun s => passesOver_iff policy intent nowMs clipped parsed s (by simp [otherMerchant, scopeWide])
  have safe : ∀ s : CommittedSpend platform, s.executed.amountMinor.isSafeInteger = true :=
    fun s => isSafeInteger_of_isAmount s.amount
  simp only [InMemoryHistory.totalsSince, List.foldl_map, safe, Bool.not_true, Bool.or_false]
  constructor
  · rw [← Rolling.total_congr _ _ _ fun s _ => counts s]
    refine foldl_tracks SpendTotals.totalMinor CommittedSpend.amountMinor rfl (fun totals s _ => ?_)
      fun s _ => s.amount
    exact apply_ite SpendTotals.totalMinor _ _ _
  · rw [← Rolling.total_congr _ _ _ fun s _ => counts s, ← toInt_one]
    refine foldl_tracks SpendTotals.count (fun _ => 1) rfl (fun totals s _ => ?_)
      fun s _ => isAmount_one
    exact apply_ite SpendTotals.count _ _ _

theorem merchantCountSince_tracks (merchant : perMerchant w = true) :
    (InMemoryHistory.merchantCountSince platform (spends.map CommittedSpend.executed)
      (merchantKeyOf platform intent.merchant) text policy.currency).Tracks
      (Rolling.total (historyCounts platform policy intent nowMs w · = true) (fun _ => 1) spends) := by
  have counts : ∀ s : CommittedSpend platform,
      (InMemoryHistory.passesOver platform text policy.currency s.executed ||
        (s.executed.merchantKey.isSome && decide (s.executed.merchantKey ≠
          some (merchantKeyOf platform intent.merchant)))) = false ↔
        historyCounts platform policy intent nowMs w s = true := by
    intro s
    simp only [InMemoryHistory.passesOver, historyCounts, clipped, parsed, CommittedSpend.executed,
      otherMerchant, merchant, s.spelled]
    grind
  rw [InMemoryHistory.merchantCountSince, List.foldl_map,
    ← Rolling.total_congr _ _ _ fun s _ => counts s, ← toInt_one]
  exact foldl_tracks id (fun _ => 1) rfl (fun count s _ => rfl) fun s _ => isAmount_one

end History

theorem pastLimit_of_isUndefined {limit : JsValue} (absent : isUndefined limit = true) (n : ℤ) :
    pastLimit limit n = false := by
  cases limit with
  | number c => cases absent
  | _ => rfl

theorem isAmount_of_amountValid (valid : amountValid intent = true) :
    IsAmount intent.amount.amountMinor := by
  rw [amountValid, Bool.and_eq_true, Bool.not_eq_true', decide_eq_false_iff_not] at valid
  exact isAmount_of_checked valid.1 fun negative => valid.2 (Number.le_of_lt negative)

theorem reasonIf_isEmpty (violated : Bool) (code message : JsString) :
    (reasonIf violated code message).isEmpty = !violated := by
  cases violated <;> rfl

theorem reasonIf_append_isEmpty (first second : Bool) (code message code' message' : JsString) :
    (reasonIf first code message ++ reasonIf second code' message').isEmpty = !(first || second) := by
  cases first
  · exact reasonIf_isEmpty second code' message'
  · rfl

/-- One window throws where its start has no text, and gives reasons exactly where it is full. -/
theorem adviceOn_cases {w : SpendWindow} (member : w ∈ policyWindows policy)
    (wellFormed : WellFormed w) (clips : ClipsAt platform (start nowMs w)) :
    reachesWindow intent nowMs w = false ∧
        (∃ thrown, adviceOn platform outside policy intent nowMs spends w = .error thrown) ∨
      reachesWindow intent nowMs w = true ∧
        ∃ reasons, adviceOn platform outside policy intent nowMs spends w = .ok reasons ∧
          reasons.isEmpty = !advisedFull platform policy intent nowMs spends w := by
  unfold adviceOn windowAdvice
  by_cases skipped : (!isUndefined w.capMinor && !amountValid intent) = true
  · refine .inr ⟨by simp [reachesWindow, skipped], [], by rw [if_pos skipped]; rfl, ?_⟩
    have unsummed : (amountValid intent || isUndefined w.capMinor) = false := by
      rw [Bool.or_comm, ← Bool.not_eq_true', Bool.not_or]
      exact skipped
    rw [advisedFull, unsummed]
    rfl
  · rw [if_neg skipped]
    have summed : (amountValid intent || isUndefined w.capMinor) = true := by
      rw [Bool.not_eq_true, ← Bool.not_eq_true', Bool.not_and, Bool.not_not, Bool.not_not,
        Bool.or_comm] at skipped
      exact skipped
    cases clipped : timeClip (start nowMs w) with
    | none =>
      obtain ⟨thrown, invalid⟩ := clips.outside clipped
      refine .inl ⟨by simp [reachesWindow, skipped, clipped], thrown, ?_⟩
      rw [start] at invalid
      rw [invalid]
      rfl
    | some since =>
      obtain ⟨text, spelled, parsed⟩ := clips.within since clipped
      rw [start] at spelled
      refine .inr ⟨by simp [reachesWindow, clipped], ?_⟩
      rw [spelled, advisedFull, summed, Bool.true_and, full]
      cases merchant : perMerchant w with
      | true =>
        refine ⟨_, rfl, ?_⟩
        rw [merchantWindowReasons, reasonIf_isEmpty]
        have tracked := merchantCountSince_tracks policy intent nowMs spends clipped parsed merchant
        have crowded := count_exceeded wellFormed.count tracked
          (Rolling.total_nonneg _ _ fun _ _ => by norm_num)
        rw [pastLimit_of_isUndefined (uncapped_of_perMerchant policy member merchant), Bool.false_or,
          ← crowded]
      | false =>
        obtain ⟨spent, count⟩ := totalsSince_tracks policy intent nowMs spends clipped parsed merchant
        refine ⟨windowReasons intent w (InMemoryHistory.totalsSince platform
          (spends.map CommittedSpend.executed) text policy.currency), rfl, ?_⟩
        generalize InMemoryHistory.totalsSince platform (spends.map CommittedSpend.executed) text
          policy.currency = totals at spent count ⊢
        have crowded := count_exceeded wellFormed.count count
          (Rolling.total_nonneg _ _ fun _ _ => by norm_num)
        have overspent : (!isUndefined w.capMinor && (!totals.totalMinor.isSafeInteger ||
            decide (checkedNumber w.capMinor < totals.totalMinor + intent.amount.amountMinor))) =
              pastLimit w.capMinor (Rolling.total (historyCounts platform policy intent nowMs w · = true)
                (·.amountMinor.toInt) spends + intent.amount.amountMinor.toInt) := by
          rcases Bool.or_eq_true_iff.mp summed with valid | absent
          · exact cap_exceeded wellFormed.cap spent
              (Rolling.total_nonneg _ _ fun s _ => s.amount.toInt_nonneg) (isAmount_of_amountValid intent valid)
          · rw [pastLimit_of_isUndefined absent, absent]
            rfl
        rw [windowReasons, reasonIf_append_isEmpty, overspent, crowded]

theorem evaluated_eq (valid : ∀ w ∈ policyWindows policy, WellFormed w) :
    evaluated platform outside policy intent nowMs spends =
      (staticReasons platform intent policy nowMs >>= fun reasons =>
        ((policyWindows policy).mapM (adviceOn platform outside policy intent nowMs spends)).map
          List.flatten >>= fun advice =>
            if reasons ++ advice ≠ [] then
              .ok ⟨.deny, reasons ++ advice, policy.id, policy.version⟩
            else approvalDecision platform intent policy) := by
  change evaluation platform (surrounding platform outside nowMs spends) intent policy true = _
  rw [evaluation_eq]
  refine congrArg _ (funext fun reasons => ?_)
  rw [windowsVerdict_of_wellFormed valid]
  rfl

/-- What the windows give together, where none of them throws. -/
theorem mapM_adviceOn {windows : List SpendWindow}
    (given : ∀ w ∈ windows, ∃ reasons,
      adviceOn platform outside policy intent nowMs spends w = .ok reasons) :
    ∃ advice, windows.mapM (adviceOn platform outside policy intent nowMs spends) = .ok advice ∧
      ∀ reasons, reasons ∈ advice ↔
        ∃ w ∈ windows, adviceOn platform outside policy intent nowMs spends w = .ok reasons := by
  induction windows with
  | nil => exact ⟨[], rfl, by simp⟩
  | cons w rest ih =>
    obtain ⟨reasons, first⟩ := given w (by simp)
    obtain ⟨advice, others, given⟩ := ih fun v member => given v (List.mem_cons_of_mem w member)
    refine ⟨reasons :: advice, ?_, fun more => ?_⟩
    · rw [List.mapM_cons, first, others]
      rfl
    · rw [List.mem_cons, given]
      simp [first, eq_comm]

theorem mapM_error {ι κ : Type} {f : ι → Throwing κ} {items : List ι} {i : ι} (member : i ∈ items)
    (fails : f i = .error thrown) : ∃ thrown', items.mapM f = .error thrown' := by
  induction items with
  | nil => cases member
  | cons j rest ih =>
    rw [List.mapM_cons]
    cases first : f j with
    | error other => exact ⟨other, rfl⟩
    | ok k =>
      rcases List.mem_cons.mp member with rfl | later
      · rw [fails] at first
        cases first
      · obtain ⟨other, failed⟩ := ih later
        exact ⟨other, by rw [failed]; rfl⟩

/-- The evaluation denies for the first window that the spends of the history fill. -/
theorem deniedWindow_eq (valid : ∀ w ∈ policyWindows policy, WellFormed w)
    (clips : ∀ w ∈ policyWindows policy, ClipsAt platform (start nowMs w)) :
    deniedWindow platform outside policy intent nowMs spends =
      (policyWindows policy).findIdx? fun w => reachesWindows platform policy intent nowMs &&
        advisedFull platform policy intent nowMs spends w := by
  have advised := fun w member =>
    adviceOn_cases platform outside policy intent nowMs spends member (valid w member) (clips w member)
  have unreached : reachesWindows platform policy intent nowMs = false → none =
      (policyWindows policy).findIdx? fun w => reachesWindows platform policy intent nowMs &&
        advisedFull platform policy intent nowMs spends w := fun unreached =>
    (List.findIdx?_eq_none_iff.mpr fun w _ => by rw [unreached, Bool.false_and]).symm
  unfold deniedWindow
  rw [evaluated_eq platform outside policy intent nowMs spends valid]
  cases ruled : staticReasons platform intent policy nowMs with
  | error thrown => exact unreached (by rw [reachesWindows, ruled]; rfl)
  | ok reasons =>
    rw [ok_bind]
    by_cases all : (policyWindows policy).all (reachesWindow intent nowMs) = true
    · have given : ∀ w ∈ policyWindows policy, ∃ reasons,
          adviceOn platform outside policy intent nowMs spends w = .ok reasons ∧
            reasons.isEmpty = !advisedFull platform policy intent nowMs spends w := by
        intro w member
        rcases advised w member with ⟨stuck, -⟩ | ⟨-, given⟩
        · rw [List.all_eq_true.mp all w member] at stuck
          cases stuck
        · exact given
      obtain ⟨advice, collected, members⟩ := mapM_adviceOn platform outside policy intent nowMs spends
        fun w member => (given w member).imp fun _ => And.left
      have reached : reachesWindows platform policy intent nowMs = true := by
        rw [reachesWindows, ruled, all]
        rfl
      rw [collected, reached]
      simp only [Bool.true_and]
      change (match (if reasons ++ advice.flatten ≠ [] then _ else _ : Throwing PolicyResult) with
        | .ok result => _
        | .error _ => _) = _
      by_cases silent : reasons ++ advice.flatten = []
      · -- no window has anything to say
        rw [if_neg (not_not.mpr silent)]
        refine Eq.trans ?_ (List.findIdx?_eq_none_iff.mpr fun w member => ?_).symm
        · cases decided : approvalDecision platform intent policy with
          | ok result => exact if_neg (approvalDecision_not_deny decided)
          | error thrown => rfl
        · obtain ⟨own, gave, empty⟩ := given w member
          have nothing := List.eq_nil_iff_forall_not_mem.mp (List.append_eq_nil_iff.mp silent).2
          cases own with
          | nil => simpa using empty
          | cons reason more =>
            exact absurd (List.mem_flatten.mpr ⟨_, (members _).mpr ⟨w, member, gave⟩, by simp⟩)
              (nothing reason)
      · rw [if_pos silent]
        refine (if_pos rfl).trans (findIdx?_congr fun w member => ?_)
        obtain ⟨own, gave, empty⟩ := given w member
        rw [gave]
        cases own with
        | nil => simpa using empty
        | cons reason more =>
          have contained : reason ∈ reasons ++ advice.flatten := List.mem_append_right _
            (List.mem_flatten.mpr ⟨_, (members _).mpr ⟨w, member, gave⟩, by simp⟩)
          simpa [contained] using empty
    · obtain ⟨w, member, stuck⟩ := List.all_eq_false.mp (Bool.eq_false_of_not_eq_true all)
      rcases advised w member with ⟨-, thrown, fails⟩ | ⟨reached, -⟩
      · obtain ⟨other, failed⟩ := mapM_error member fails
        rw [failed]
        exact unreached (by rw [reachesWindows, ruled, Bool.eq_false_of_not_eq_true all]; rfl)
      · exact absurd reached stuck

/-! ### Both together -/

/-- The first window that either side finds full is the same: by the evaluation's count of the spends
from its start on, and by the limiter's of those after it in the policy's own spelling. -/
def SameFirstFull : Prop :=
  ((policyWindows policy).findIdx? fun w => reachesWindows platform policy intent nowMs &&
      advisedFull platform policy intent nowMs spends w) =
    (policyWindows policy).findIdx? fun w => limiterReachesWindows intent l &&
      full platform intent spends (limiterCounts platform policy intent nowMs) w

instance : Decidable (SameFirstFull platform policy intent nowMs spends l) :=
  inferInstanceAs (Decidable (_ = _))

/-- The evaluation denies for a window and the limiter refuses for the same one, or neither does,
exactly if the exact sums of the two counts fill the same window first. -/
theorem windows_agree_iff (valid : ∀ w ∈ policyWindows policy, WellFormed w)
    (clips : ∀ w ∈ policyWindows policy, ClipsAt platform (start nowMs w))
    (held : (l.held policy.id policy.currency).Perm
      ((spends.filter (·.currency = policy.currency)).map (·.record policy.id))) :
    deniedWindow platform outside policy intent nowMs spends =
        refusedWindow platform policy intent nowMs l ↔
      SameFirstFull platform policy intent nowMs spends l := by
  rw [deniedWindow_eq platform outside policy intent nowMs spends valid clips,
    refusedWindow_eq platform policy intent nowMs spends l valid held]
  rfl

/-- Both checks get to the windows, and no spend lies at the start of a window or is held under
another spelling of the currency. -/
structure Plain : Prop where
  amount : amountValid intent = true
  new : l.byId intent.id = none
  reached : reachesWindows platform policy intent nowMs = true
  started : ∀ s ∈ spends, ∀ w ∈ policyWindows policy, ∀ since,
    timeClip (start nowMs w) = some since → (s.ms < since ↔ s.ms ≤ start nowMs w)
  spelled : ∀ s ∈ spends, platform.toUpperCase s.currency = platform.toUpperCase policy.currency →
    s.currency = policy.currency

/-- In plain circumstances the two checks agree. -/
theorem windows_agree_of_plain (plain : Plain platform policy intent nowMs spends l)
    (valid : ∀ w ∈ policyWindows policy, WellFormed w)
    (clips : ∀ w ∈ policyWindows policy, ClipsAt platform (start nowMs w))
    (held : (l.held policy.id policy.currency).Perm
      ((spends.filter (·.currency = policy.currency)).map (·.record policy.id))) :
    deniedWindow platform outside policy intent nowMs spends =
      refusedWindow platform policy intent nowMs l := by
  rw [deniedWindow_eq platform outside policy intent nowMs spends valid clips,
    refusedWindow_eq platform policy intent nowMs spends l valid held]
  have amount := isAmount_of_amountValid intent plain.amount
  have usable : limiterReachesWindows intent l = true := by
    have positive := plain.amount
    rw [amountValid, Bool.and_eq_true, Bool.not_eq_true', decide_eq_false_iff_not] at positive
    rw [limiterReachesWindows, plain.new, positive.1]
    exact congrArg not (decide_eq_false fun negative => positive.2 (Number.le_of_lt negative))
  refine findIdx?_congr fun w member => ?_
  rw [plain.reached, usable, advisedFull, plain.amount]
  have summed : reachesWindow intent nowMs w = true := by
    have reached := plain.reached
    rw [reachesWindows, Bool.and_eq_true] at reached
    exact List.all_eq_true.mp reached.2 w member
  rw [reachesWindow, plain.amount] at summed
  obtain ⟨since, clipped⟩ := Option.isSome_iff_exists.mp (by simpa using summed)
  have same : ∀ s ∈ spends, historyCounts platform policy intent nowMs w s = true ↔
      limiterCounts platform policy intent nowMs w s = true := by
    intro s spent
    have started := plain.started s spent w member since clipped
    have spelled : platform.toUpperCase s.currency = platform.toUpperCase policy.currency ↔
        s.currency = policy.currency := ⟨plain.spelled s spent, fun same => by rw [same]⟩
    simp [historyCounts, limiterCounts, clipped, started, spelled]
  simp only [Bool.true_or, Bool.true_and, full]
  rw [Rolling.total_congr _ _ _ same, Rolling.total_congr _ _ _ same]

end Agreement

namespace Sample

/-- The clock stands at 1780000000000, so that a day ago is 1779913600000. -/
def platform : Platform :=
  { Vaduno.Sample.platform with
    toISOString := fun ms =>
      if ms = 1779913600000 then .ok "2026-05-27T20:26:40.000Z"
      else .error (.error "Invalid time value")
    dateParse := fun text =>
      if text = encode "2026-05-27T20:26:40.000Z" then 1779913600000 else .nan }

def policy : SpendPolicy :=
  { Vaduno.Sample.policy with
    limits := ⟨.undefined, .number 1000, .undefined, .undefined⟩ }

/-- The whole budget of a day, spent at some time. -/
def spend (ms : Number) : CommittedSpend platform where
  reservationId := "i-0"
  ms := ms
  amountMinor := 1000
  merchantKey := some "id:openai"
  currency := "USD"
  recordedCurrency := "USD"
  amount := ⟨1000, by norm_num, by norm_num, rfl⟩
  spelled := rfl

def limiter (ms : Number) : MemorySpendLimiter :=
  (MemorySpendLimiter.empty.reserve {
    reservationId := "i-0"
    scope := "p-1"
    currency := "USD"
    amountMinor := 1000
    nowMs := ms
    windows := policyWindows policy
    merchantKey := some "id:openai" }).2.commit "i-0"

def denied (ms : Number) : Option ℕ :=
  deniedWindow platform Vaduno.Sample.outside policy (Vaduno.Sample.intent "i-1") 1780000000000
    [spend ms]

def refused (ms : Number) : Option ℕ :=
  refusedWindow platform policy (Vaduno.Sample.intent "i-1") 1780000000000 (limiter ms)

theorem sampled : ∀ ms ∈ [(1779913600000 : Number), 1779913600001],
    ((limiter ms).held policy.id policy.currency).Perm
      (([spend ms].filter (·.currency = policy.currency)).map (·.record policy.id)) ∧
    (SameFirstFull platform policy (Vaduno.Sample.intent "i-1") 1780000000000 [spend ms]
      (limiter ms) ↔ ms ≠ 1779913600000) := by
  decide +kernel

theorem valid : ∀ w ∈ policyWindows policy, WellFormed w := by
  intro w member
  cases List.mem_singleton.mp (show w ∈ [_] from member)
  exact ⟨by decide +kernel, .inr (by decide +kernel), .inl rfl, .inl rfl, .inl rfl⟩

theorem clips : ∀ w ∈ policyWindows policy, ClipsAt platform (start 1780000000000 w) := by
  intro w member
  cases List.mem_singleton.mp (show w ∈ [_] from member)
  have day : start 1780000000000 ⟨encode "PER_DAY_LIMIT_EXCEEDED", .number dayMs, .number 1000,
      .undefined, .undefined⟩ = 1779913600000 := by decide +kernel
  have clipped : timeClip 1779913600000 = some 1779913600000 := by decide +kernel
  refine (congrArg (ClipsAt platform) day).mpr ⟨fun t same => ⟨"2026-05-27T20:26:40.000Z", if_pos rfl, ?_⟩, fun outside => ?_⟩
  · rw [clipped] at same
    cases same
    rfl
  · rw [clipped] at outside
    cases outside

end Sample

/-- A millisecond after the start of the window both checks count the spend. -/
theorem spend_after_start_agreed : Sample.denied 1779913600001 = Sample.refused 1779913600001 :=
  (windows_agree_iff Sample.platform Vaduno.Sample.outside Sample.policy (Vaduno.Sample.intent "i-1")
    1780000000000 [Sample.spend 1779913600001] (Sample.limiter 1779913600001) Sample.valid Sample.clips
    (Sample.sampled _ (by simp)).1).mpr ((Sample.sampled _ (by simp)).2.mpr (by decide +kernel))

/-- At the very start of the window the limiter has let go of the spend, and the evaluation still
denies for it. -/
theorem spend_at_start_denied :
    (∀ w ∈ policyWindows Sample.policy, WellFormed w) ∧
    ((Sample.limiter 1779913600000).held Sample.policy.id Sample.policy.currency).Perm
      (([Sample.spend 1779913600000].filter (·.currency = Sample.policy.currency)).map
        (·.record Sample.policy.id)) ∧
    Sample.denied 1779913600000 = some 0 ∧ Sample.refused 1779913600000 = none :=
  ⟨Sample.valid, (Sample.sampled _ (by simp)).1, by decide +kernel⟩

end Vaduno.Policy
