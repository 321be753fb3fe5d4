import Vaduno.Enforce.SpendLimiter

/-! Cap safety of the spend limiter over whole runs. The limiter checks one interval, the one
that ends at the clock reading it is given; what it promises is about every interval, whatever
order the readings come in. -/
namespace Vaduno.Enforce
open Ecma

inductive LimiterCall
  | reserve (reservationId scope currency : JsString) (amountMinor nowMs : Number)
      (merchantKey : Option JsString)
  | commit (reservationId : JsString)
  | release (reservationId : JsString)

/-- The record's time lies in `(start, start + windowMs]`. -/
def inInterval (start : ℚ) (w : SpendWindow) (r : SpendRecord) : Bool :=
  match r.ms, w.windowMs with
  | .fin t, .number (.fin length) => decide (start < t.val) && decide (t.val ≤ start + length.val)
  | _, _ => false

/-- The records a window budgets for one merchant: all of them, unless it counts per merchant. -/
def budgets (w : SpendWindow) (merchant : JsString) (r : SpendRecord) : Bool :=
  !perMerchant w || r.merchantKey.isNone || decide (r.merchantKey = some merchant)

/-- The records of one interval that one window counts for one merchant. -/
def Spent (start : ℚ) (w : SpendWindow) (merchant : JsString) (r : SpendRecord) : Prop :=
  inInterval start w r = true ∧ budgets w merchant r = true

instance : DecidablePred (Spent start w merchant) := fun _ => inferInstanceAs (Decidable (_ ∧ _))

/-- One interval keeps to the cap and the count of one window. -/
structure Within (start : ℚ) (w : SpendWindow) (merchant : JsString) (records : List SpendRecord) :
    Prop where
  cap : ∀ c, w.capMinor = .number c →
    Rolling.total (Spent start w merchant) SpendRecord.amount records ≤ c.toInt
  count : ∀ c, w.maxCount = .number c →
    Rolling.total (Spent start w merchant) (fun _ => 1) records ≤ c.toInt

/-- The cutoff computed at `nowMs` passes over a record that is younger than the window: the
subtraction was rounded up onto it. -/
def Overlooks (w : SpendWindow) (nowMs : Number) (r : SpendRecord) : Prop :=
  r.ms ≤ nowMs - checkedNumber w.windowMs ∧
    ∃ now length t : Double, nowMs = .fin now ∧ w.windowMs = .number (.fin length) ∧ r.ms = .fin t ∧
      now.val - length.val < t.val

theorem inInterval_times (inside : inInterval start w r = true) :
    ∃ t length : Double, r.ms = .fin t ∧ w.windowMs = .number (.fin length) ∧ start < t.val ∧
      t.val ≤ start + length.val := by
  unfold inInterval at inside
  split at inside
  · rename_i t length time windowMs
    simp only [Bool.and_eq_true, decide_eq_true_eq] at inside
    exact ⟨t, length, time, windowMs, inside⟩
  · cases inside

/-- A cutoff that is a number of the language rounds to itself at most, so an interval starting at
one is never overlooked. -/
theorem not_le_cutoff_of_representable (representable : Binary64.Representable start)
    (newInside : inInterval start w new = true) (oldInside : inInterval start w old = true) :
    ¬old.ms ≤ new.ms - checkedNumber w.windowMs := by
  obtain ⟨now, length, newMs, windowMs, -, ends⟩ := inInterval_times newInside
  obtain ⟨t, -, oldMs, -, begins, -⟩ := inInterval_times oldInside
  rw [newMs, oldMs, windowMs]
  intro passed
  have cutoff : Number.round (now.val - length.val) ≤ Number.round start :=
    Number.round_mono (by linarith)
  rw [Number.round_of_representable representable] at cutoff
  have := (Number.fin_le _ _).mp (Number.le_trans passed cutoff)
  linarith

theorem not_le_cutoff_of_not_overlooks (seen : ¬Overlooks w new.ms old)
    (newInside : inInterval start w new = true) (oldInside : inInterval start w old = true) :
    ¬old.ms ≤ new.ms - checkedNumber w.windowMs := by
  obtain ⟨now, length, newMs, windowMs, -, ends⟩ := inInterval_times newInside
  obtain ⟨t, -, oldMs, -, begins, -⟩ := inInterval_times oldInside
  intro passed
  exact seen ⟨passed, now, length, t, newMs, windowMs, oldMs, by linarith⟩

/-- What was counted at an admission covers every interval the new record falls in. -/
theorem counted_of_spent (keyed : perMerchant w = true → new.merchantKey.isSome = true)
    (unpassed : ¬old.ms ≤ new.ms - checkedNumber w.windowMs)
    (newSpent : Spent start w merchant new) (oldSpent : Spent start w merchant old) :
    Counted w new.merchantKey (new.ms - checkedNumber w.windowMs) old := by
  simp only [Spent, budgets, Bool.or_eq_true, Bool.not_eq_true', decide_eq_true_eq]
    at newSpent oldSpent
  simp only [Counted, skips, unpassed, decide_false, Bool.false_or, Bool.and_eq_false_iff]
  cases newKey : new.merchantKey <;> cases oldKey : old.merchantKey <;> grind

/-- The state of one budget: exact amounts, and nothing at all under a malformed window. -/
structure Budgeted (windows : List SpendWindow) (records : List SpendRecord) : Prop where
  amounts : ∀ r ∈ records, IsAmount r.amountMinor
  refused : (∃ w ∈ windows, ¬WellFormed w) → records = []

theorem Budgeted.amount_nonneg (budgeted : Budgeted windows records) :
    ∀ r ∈ records, 0 ≤ r.amount :=
  fun r member => (budgeted.amounts r member).toInt_nonneg

theorem isSafeFrom_toInt_nonneg {k : ℤ} (nonneg : 0 ≤ k) (narrow : k ≤ 2 ^ 53)
    (safe : isSafeFrom k (.number c) = true) : 0 ≤ c.toInt := by
  obtain ⟨n, small, rfl⟩ := isSafeFrom_number safe
  rw [Number.toInt_intCast small.le]
  by_contra negative
  have below : (n : Number) < (k : Number) :=
    (Number.intCast_lt small.le (by rwa [abs_of_nonneg nonneg])).mpr (by omega)
  simp [isSafeFrom, below] at safe

theorem Within.nil (wellFormed : WellFormed w) : Within start w merchant [] where
  cap c limit := by
    have safe : isSafeFrom 0 (.number c) = true := by
      simpa [limit, isUndefined] using wellFormed.cap
    exact isSafeFrom_toInt_nonneg (k := 0) le_rfl (by norm_num) safe
  count c limit := by
    have safe : isSafeFrom 1 (.number c) = true := by
      simpa [limit, isUndefined] using wellFormed.count
    exact isSafeFrom_toInt_nonneg (k := 1) (by norm_num) (by norm_num) safe

theorem Within.sublist (within : Within start w merchant records) (fewer : smaller.Sublist records)
    (budgeted : Budgeted windows records) : Within start w merchant smaller where
  cap c limit := (Rolling.total_sublist _ _ fewer budgeted.amount_nonneg).trans (within.cap c limit)
  count c limit :=
    (Rolling.total_sublist _ _ fewer fun _ _ => by norm_num).trans (within.count c limit)

theorem Within.append (within : Within start w merchant records) (budgeted : Budgeted windows records)
    (admits : Admits w records new.amountMinor new.ms new.merchantKey)
    (seen : ∀ old ∈ records, inInterval start w new = true → inInterval start w old = true →
      ¬old.ms ≤ new.ms - checkedNumber w.windowMs) :
    Within start w merchant (records ++ [new]) := by
  have covers : Spent start w merchant new → ∀ old ∈ records, Spent start w merchant old →
      Counted w new.merchantKey (new.ms - checkedNumber w.windowMs) old := by
    intro newSpent old member oldSpent
    exact counted_of_spent admits.keyed (seen old member newSpent.1 oldSpent.1) newSpent oldSpent
  exact {
    cap := fun c limit => Rolling.total_admit _ _ _ budgeted.amount_nonneg (within.cap c limit)
      covers (admits.cap c limit)
    count := fun c limit => Rolling.total_admit _ _ _ (fun _ _ => by norm_num)
      (within.count c limit) covers (admits.count c limit) }

theorem Budgeted.nil : Budgeted windows [] := ⟨by simp, fun _ => rfl⟩

theorem Budgeted.sublist (budgeted : Budgeted windows records)
    (fewer : smaller.Sublist records) : Budgeted windows smaller where
  amounts r member := budgeted.amounts r (fewer.subset member)
  refused malformed := by
    rw [budgeted.refused malformed] at fewer
    exact List.sublist_nil.mp fewer

section Relabelled
variable (relabel : SpendRecord → SpendRecord)
  (settles : ∀ q, relabel q = q ∨ relabel q = { q with state := .committed })
include settles

theorem Budgeted.map (budgeted : Budgeted windows records) :
    Budgeted windows (records.map relabel) where
  amounts r member := by
    obtain ⟨q, held, rfl⟩ := List.mem_map.mp member
    have := budgeted.amounts q held
    rcases settles q with same | settled
    · rwa [same]
    · rwa [settled]
  refused malformed := by rw [budgeted.refused malformed, List.map_nil]

theorem Within.map (within : Within start w merchant records) :
    Within start w merchant (records.map relabel) := by
  have selects : ∀ q, Spent start w merchant (relabel q) ↔ Spent start w merchant q := by
    intro q
    rcases settles q with same | settled
    · rw [same]
    · rw [settled]
      rfl
  have weights : ∀ q, (relabel q).amount = q.amount := by
    intro q
    rcases settles q with same | settled
    · rw [same]
    · rw [settled]
      rfl
  exact {
    cap := fun c limit => (Rolling.total_map _ _ relabel weights selects _).trans_le
      (within.cap c limit)
    count := fun c limit => (Rolling.total_map _ _ relabel (fun _ => rfl) selects _).trans_le
      (within.count c limit) }

end Relabelled

section Runs
variable (windowsOf : JsString → JsString → List SpendWindow)

/-- One call, the windows of a reservation being the ones fixed for its budget. -/
def call (l : MemorySpendLimiter) : LimiterCall → MemorySpendLimiter
  | .reserve reservationId scope currency amountMinor nowMs merchantKey =>
    (l.reserve ⟨reservationId, scope, currency, amountMinor, nowMs, windowsOf scope currency,
      merchantKey⟩).2
  | .commit reservationId => l.commit reservationId
  | .release reservationId => l.release reservationId

def run (calls : List LimiterCall) : MemorySpendLimiter := calls.foldl (call windowsOf) .empty

/-- The reservation is admitted only where no cutoff overlooks a record of its budget. -/
def Attentive (l : MemorySpendLimiter) : LimiterCall → Prop
  | .reserve reservationId scope currency amountMinor nowMs merchantKey =>
    call windowsOf l (.reserve reservationId scope currency amountMinor nowMs merchantKey) ≠ l →
      ∀ w ∈ windowsOf scope currency, ∀ r ∈ l.held scope currency, ¬Overlooks w nowMs r
  | _ => True

/-- How one call changes one budget: not at all, by admitting a record that every window let
through, by settling records, or by dropping one that is not settled. -/
theorem call_held (l : MemorySpendLimiter) (op : LimiterCall) (scope currency : JsString) :
    (call windowsOf l op).held scope currency = l.held scope currency ∨
      (∃ new, op = .reserve new.reservationId scope currency new.amountMinor new.ms
          new.merchantKey ∧ call windowsOf l op ≠ l ∧
        firstViolatedWindow (windowsOf scope currency) (l.held scope currency) new.amountMinor
          new.ms new.merchantKey = .ok none ∧
        (call windowsOf l op).held scope currency = l.held scope currency ++ [new]) ∨
      (∃ relabel : SpendRecord → SpendRecord,
        (∀ q, relabel q = q ∨ relabel q = { q with state := .committed }) ∧
        (call windowsOf l op).held scope currency = (l.held scope currency).map relabel) ∨
      ∃ r, r.state = .reserved ∧
        (call windowsOf l op).held scope currency = (l.held scope currency).erase r := by
  cases op with
  | reserve reservationId opScope opCurrency amountMinor nowMs merchantKey =>
    rcases l.reserve_cases ⟨reservationId, opScope, opCurrency, amountMinor, nowMs,
      windowsOf opScope opCurrency, merchantKey⟩ with ⟨same, -⟩ | ⟨fresh, passed, -, inserted⟩
    · exact .inl (by rw [call, same])
    · rw [call, inserted, SpendMaps.held_insert]
      split_ifs with budget
      · obtain ⟨rfl, rfl⟩ := budget
        refine .inr (.inl ⟨_, rfl, fun same => ?_, passed, rfl⟩)
        rw [← same, inserted] at fresh
        simp [SpendMaps.insert, MemorySpendLimiter.record] at fresh
      · exact .inl rfl
  | commit reservationId =>
    rcases l.commit_cases reservationId with ⟨-, same⟩ | ⟨r, -, settled⟩
    · exact .inl (by rw [call, same])
    · rw [call, settled, SpendMaps.held_settle]
      refine .inr (.inr (.inl ⟨_, fun q => ?_, rfl⟩))
      by_cases chosen : q = r <;> simp [chosen]
  | release reservationId =>
    rcases l.release_cases reservationId with ⟨-, same⟩ | ⟨r, -, pending, removed⟩
    · exact .inl (by rw [call, same])
    · rw [call, removed, SpendMaps.held_remove]
      split_ifs
      · exact .inr (.inr (.inr ⟨r, pending, rfl⟩))
      · exact .inl rfl

/-- What the records of one budget satisfy after every call. -/
structure Safe (start : ℚ) (windows : List SpendWindow) (records : List SpendRecord) : Prop where
  budgeted : Budgeted windows records
  within : ∀ w ∈ windows, WellFormed w → ∀ merchant, Within start w merchant records

theorem call_safe (l : MemorySpendLimiter) (op : LimiterCall)
    (seen : Binary64.Representable start ∨ Attentive windowsOf l op)
    (safe : Safe start (windowsOf scope currency) (l.held scope currency)) :
    Safe start (windowsOf scope currency) ((call windowsOf l op).held scope currency) := by
  obtain ⟨budgeted, within⟩ := safe
  rcases call_held windowsOf l op scope currency with
    same | ⟨new, rfl, changed, passed, held⟩ | ⟨relabel, settles, held⟩ | ⟨r, -, held⟩
  · rw [same]
    exact ⟨budgeted, within⟩
  · rw [held]
    obtain ⟨amount, admits⟩ := firstViolatedWindow_none budgeted.amounts passed
    refine ⟨⟨?_, ?_⟩, fun w member wellFormed merchant => ?_⟩
    · intro r member
      rcases List.mem_append.mp member with old | added
      · exact budgeted.amounts r old
      · rwa [List.mem_singleton.mp added]
    · rintro ⟨w, member, malformed⟩
      exact absurd (admits w member).1 malformed
    · refine (within w member wellFormed merchant).append budgeted (admits w member).2 ?_
      intro old oldMember
      rcases seen with representable | attentive
      · exact not_le_cutoff_of_representable representable
      · exact not_le_cutoff_of_not_overlooks (attentive changed w member old oldMember)
  · rw [held]
    exact ⟨budgeted.map relabel settles,
      fun w member wellFormed merchant => (within w member wellFormed merchant).map relabel settles⟩
  · rw [held]
    exact ⟨budgeted.sublist List.erase_sublist,
      fun w member wellFormed merchant =>
        (within w member wellFormed merchant).sublist List.erase_sublist budgeted⟩

theorem run_append (calls more : List LimiterCall) :
    run windowsOf (calls ++ more) = more.foldl (call windowsOf) (run windowsOf calls) :=
  List.foldl_append ..

/-- Every reservation of the run is admitted only where no cutoff overlooks a record. -/
def AllAttentive (calls : List LimiterCall) : Prop :=
  ∀ before op after, calls = before ++ op :: after → Attentive windowsOf (run windowsOf before) op

theorem run_safe (calls : List LimiterCall) (scope currency : JsString) (start : ℚ)
    (seen : Binary64.Representable start ∨ AllAttentive windowsOf calls) :
    Safe start (windowsOf scope currency) ((run windowsOf calls).held scope currency) := by
  induction calls using List.reverseRecOn with
  | nil => exact ⟨.nil, fun w member wellFormed merchant => .nil wellFormed⟩
  | append_singleton calls op ih =>
    rw [run_append]
    refine call_safe windowsOf _ op (seen.imp_right fun attentive => attentive calls op [] rfl) ?_
    refine ih (seen.imp_right fun attentive before earlier after split => ?_)
    exact attentive before earlier (after ++ [op]) (by simp [split])

theorem committed_stays (l : MemorySpendLimiter) (op : LimiterCall)
    (member : r ∈ l.held scope currency) (committed : r.state = .committed) :
    r ∈ (call windowsOf l op).held scope currency := by
  rcases call_held windowsOf l op scope currency with
    same | ⟨new, -, -, -, held⟩ | ⟨relabel, settles, held⟩ | ⟨q, pending, held⟩
  · rwa [same]
  · rw [held]
    exact List.mem_append_left _ member
  · rw [held]
    refine List.mem_map.mpr ⟨r, member, (settles r).elim id fun settled => ?_⟩
    rw [settled, ← committed]
  · rw [held]
    refine (List.mem_erase_of_ne ?_).mpr member
    rintro rfl
    rw [committed] at pending
    cases pending

/-- Whatever is called and in whatever order the clock reads, each interval that starts at a number
of the language keeps to every well-formed window, and so does every other interval as long as no
cutoff overlooked a record; committed records stay; a malformed window admits nothing. -/
theorem spend_within_windows (calls : List LimiterCall) (scope currency : JsString) :
    (∀ w ∈ windowsOf scope currency, WellFormed w → ∀ merchant start,
      Binary64.Representable start ∨ AllAttentive windowsOf calls →
      Within start w merchant ((run windowsOf calls).held scope currency)) ∧
    (∀ r ∈ (run windowsOf calls).held scope currency, r.state = .committed → ∀ later,
      r ∈ (run windowsOf (calls ++ later)).held scope currency) ∧
    ((∃ w ∈ windowsOf scope currency, ¬WellFormed w) →
      (run windowsOf calls).held scope currency = []) := by
  refine ⟨fun w member wellFormed merchant start seen => ?_, fun r member committed later => ?_, ?_⟩
  · exact (run_safe windowsOf calls scope currency start seen).within w member wellFormed merchant
  · induction later using List.reverseRecOn with
    | nil => simpa using member
    | append_singleton later op ih =>
      rw [← List.append_assoc, run_append]
      exact committed_stays windowsOf _ op ih committed
  · exact (run_safe windowsOf calls scope currency 0
      (.inl ⟨0, 0, by norm_num, by norm_num, by norm_num, by norm_num⟩)).budgeted.refused

end Runs

/-- Five units a minute, in at most two payments to one merchant. -/
def minuteWindow : SpendWindow where
  code := "CAP"
  windowMs := .number 60000
  capMinor := .number 5
  maxCount := .number 2
  dimension := .string "merchant"

def minuteCalls : List LimiterCall :=
  [.reserve "a" "policy" "EUR" 3 100000 (some "id:shop"), .commit "a",
    .reserve "b" "policy" "EUR" 2 90000 (some "id:shop"), .release "a",
    .reserve "c" "policy" "EUR" 1 95000 (some "id:shop")]

theorem spend_within_minute :
    Within 50000 minuteWindow "id:shop"
        ((run (fun _ _ => [minuteWindow]) minuteCalls).held "policy" "EUR") ∧
      ((run (fun _ _ => [minuteWindow]) minuteCalls).held "policy" "EUR").length = 2 := by
  refine ⟨(spend_within_windows (fun _ _ => [minuteWindow]) minuteCalls "policy" "EUR").1
    minuteWindow (by simp) ⟨by decide +kernel, .inr (by decide +kernel), .inr (by decide +kernel),
      .inl rfl, .inr (.inr (by decide +kernel))⟩ "id:shop" 50000 (.inl ?_), by decide +kernel⟩
  exact_mod_cast Binary64.representable_intCast (n := 50000) (by norm_num)

/-- A window shorter than the clock can resolve: its cutoff rounds back up to the reading. -/
def tinyWindow : SpendWindow where
  code := "CAP"
  windowMs := .number (Number.round (1 / 100000))
  capMinor := .undefined
  maxCount := .number 1
  dimension := .undefined

def tinyWindowCalls : List LimiterCall :=
  [.reserve "a" "policy" "EUR" 500 1700000000000 none,
    .reserve "b" "policy" "EUR" 500 1700000000000 none]

theorem tinyWindow_wellFormed : WellFormed tinyWindow where
  length := by decide +kernel
  cap := .inl rfl
  count := .inr (by decide +kernel)
  limited := .inr rfl
  dimension := .inl rfl

/-- Two reservations at one reading both pass a count of one, since the cutoff passes over the
first; the interval they lie in starts between two numbers of the language. -/
theorem tiny_window_overrun :
    ¬∀ (windowsOf : JsString → JsString → List SpendWindow) (calls : List LimiterCall)
      (scope currency : JsString), ∀ w ∈ windowsOf scope currency, WellFormed w →
      ∀ merchant start, Within start w merchant ((run windowsOf calls).held scope currency) := by
  intro always
  have within := always (fun _ _ => [tinyWindow]) tinyWindowCalls "policy" "EUR" tinyWindow (by simp)
    tinyWindow_wellFormed "" (1700000000000 - 1 / 200000)
  exact absurd (within.count 1 rfl) (by decide +kernel)

end Vaduno.Enforce
