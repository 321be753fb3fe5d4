import Vaduno.Postgres.SpendLimiter

/-! When the limiter over the table stands in for the one in memory: call by call against the list of
records, and from there over whole runs. -/
namespace Vaduno.Postgres
open Ecma Enforce

/-- An answer up to the wording of a refusal. -/
def gist : LimiterAnswer → LimiterAnswer
  | .reserved (.refused violation) => .reserved (.refused ⟨violation.code, []⟩)
  | answer => answer

/-- The two limiters answer alike: the same outcome with the same code and the same totals. -/
def Alike (x y : Throwing LimiterAnswer) : Prop := x.map gist = y.map gist

/-- What the check of the windows refuses over no records at all, under the code of a malformed
window: a window may carry that code as its own. -/
def refusedAlone (req : ReserveRequest) : Option Violation :=
  match firstViolatedWindow req.windows [] req.amountMinor req.nowMs req.merchantKey with
  | .ok (some violation) =>
    if violation.code = encode "SPEND_WINDOW_INVALID" then some violation else none
  | _ => none

/-- A reservation whose numbers fit the columns. -/
structure ReserveFits (req : ReserveRequest) (held : List SpendRecord) : Prop where
  start : req.windows ≠ [] → refusedAlone req = none →
    (bigint (req.nowMs - widest req.windows)).isOk = true
  code : ∀ violation, refusedAlone req = some violation → ∃ violation',
    firstViolatedWindow req.windows held req.amountMinor req.nowMs req.merchantKey =
      .ok (some violation') ∧ violation'.code = violation.code
  clock : firstViolatedWindow req.windows held req.amountMinor req.nowMs req.merchantKey = .ok none →
    req.nowMs.isSafeInteger = true

/-- Sums that fit a number, from an instant that there is, or from none and nothing to sum. -/
structure TotalsFit (since : Number) (held : List SpendRecord) : Prop where
  instant : since.isSafeInteger = true ∨ since.isFinite = false ∧ ∀ r ∈ held, r.ms ≤ 0
  sum : Rolling.total (before since · = false) SpendRecord.amount held < 2 ^ 53
  count : Rolling.total (before since · = false) (fun _ => (1 : ℤ)) held < 2 ^ 53

/-- The calls for which the table is good, given the records held for a budget and whether an id is
known. -/
def Fits (dateParse : JsString → Number) (known : JsString → Bool) (held : JsString → List SpendRecord) :
    LimiterOp → Prop
  | .reserve req => known req.reservationId = false → (∀ w ∈ req.windows, WellFormed w) →
    ReserveFits req (held (scopeKey req.scope req.currency))
  | .pruneBefore beforeMs => (bigint beforeMs).isOk = true
  | .totalsSince scope sinceIso currency =>
    TotalsFit (dateParse sinceIso) (held (scopeKey scope currency))
  | .commit _ | .release _ => True

section Steps
variable {t : SpendTable} {b : SpendBook}

theorem config_passed {req : ReserveRequest} {checked : Option Violation}
    (config : firstViolatedWindow req.windows [] req.amountMinor req.nowMs req.merchantKey = .ok checked)
    (unrefused : refusedAlone req = none) :
    checked.filter (·.code = encode "SPEND_WINDOW_INVALID") = none := by
  rw [refusedAlone, config] at unrefused
  cases checked with
  | none => rfl
  | some first =>
    dsimp only at unrefused
    split_ifs at unrefused with code
    rw [Option.filter_some, if_neg (by simpa using code)]

section Paths
variable {scan : Scan} {req : ReserveRequest}

theorem reserve_known {row : SpendRow} (found : t.find req.reservationId = some row) :
    t.reserve scan req = (.ok (.reserved (.ok req.reservationId true (some row.state))), t) := by
  unfold SpendTable.reserve
  split
  · rename_i known
    rw [found] at known
    cases known
    rfl
  · rename_i absent
    rw [found] at absent
    cases absent

variable (absent : t.find req.reservationId = none)
include absent

theorem reserve_thrown {thrown : Thrown}
    (failed : firstViolatedWindow req.windows [] req.amountMinor req.nowMs req.merchantKey =
      .error thrown) : t.reserve scan req = (.error thrown, t) := by
  unfold SpendTable.reserve
  split
  · rename_i known
    rw [absent] at known
    cases known
  · rw [failed]

theorem reserve_alone {violation : Violation} (refused : refusedAlone req = some violation) :
    t.reserve scan req = (.ok (.reserved (.refused violation)), t) := by
  unfold refusedAlone at refused
  unfold SpendTable.reserve
  split
  · rename_i known
    rw [absent] at known
    cases known
  · split at refused
    · rename_i first checked
      split_ifs at refused with code
      cases refused
      rw [checked]
      dsimp only
      rw [Option.filter_some, if_pos (decide_eq_true code)]
    · cases refused

variable {checked : Option Violation} {existing : List SpendRecord}
  (config : firstViolatedWindow req.windows [] req.amountMinor req.nowMs req.merchantKey = .ok checked)
  (unrefused : refusedAlone req = none) (loaded : t.load scan req = .ok existing)
include config unrefused loaded

theorem reserve_refused {violation : Violation}
    (refused : firstViolatedWindow req.windows existing req.amountMinor req.nowMs req.merchantKey =
      .ok (some violation)) :
    t.reserve scan req = (.ok (.reserved (.refused violation)), t) := by
  unfold SpendTable.reserve
  split
  · rename_i known
    rw [absent] at known
    cases known
  · rw [config]
    dsimp only
    rw [config_passed config unrefused]
    dsimp only
    rw [loaded]
    dsimp only
    rw [refused]

theorem reserve_admitted {amountMinor occurredMs : ℤ}
    (admitted : firstViolatedWindow req.windows existing req.amountMinor req.nowMs req.merchantKey =
      .ok none)
    (bound : SpendTable.bindNumbers req = .ok (amountMinor, occurredMs)) :
    (t.reserve scan req).1 = .ok (.reserved (.ok req.reservationId false none)) ∧
      (t.reserve scan req).2.rows = t.rows ++ [⟨req.reservationId, req.scope, req.currency, amountMinor,
        occurredMs, req.merchantKey, .reserved⟩] := by
  unfold SpendTable.reserve
  split
  · rename_i known
    rw [absent] at known
    cases known
  · rw [config]
    dsimp only
    rw [config_passed config unrefused]
    dsimp only
    rw [loaded]
    dsimp only
    rw [admitted]
    dsimp only
    rw [bound]
    exact ⟨rfl, rfl⟩

end Paths

/-- A malformed window is refused under its own code, before anything else. -/
theorem firstMisconfigured_code {windows : List SpendWindow} {violation : Violation}
    (refused : firstMisconfigured windows = .ok (some violation)) :
    violation.code = encode "SPEND_WINDOW_INVALID" := by
  induction windows with
  | nil => cases refused
  | cons w rest ih =>
    obtain ⟨problem, checked, remaining⟩ := bind_ok refused
    cases problem with
    | some problem =>
      cases remaining
      rfl
    | none => exact ih remaining

/-- What the check of the windows throws has nothing to do with the records. -/
theorem firstViolatedWindow_error {windows : List SpendWindow} {existing : List SpendRecord}
    {merchantKey : Option JsString} {thrown : Thrown}
    (failed : firstViolatedWindow windows [] amountMinor nowMs merchantKey = .error thrown) :
    firstViolatedWindow windows existing amountMinor nowMs merchantKey = .error thrown := by
  unfold firstViolatedWindow at failed ⊢
  cases config : firstMisconfigured windows with
  | error other =>
    rw [config] at failed
    cases failed
    rfl
  | ok problem =>
    rw [config, ok_bind] at failed
    cases problem with
    | some violation => cases failed
    | none =>
      dsimp only at failed
      split_ifs at failed
      · cases failed
      · cases failed

/-- Nor has what it refuses for a malformed window. -/
theorem firstViolatedWindow_malformed {windows : List SpendWindow} {checked : Option Violation}
    {merchantKey : Option JsString} (malformed : ¬∀ w ∈ windows, WellFormed w)
    (config : firstViolatedWindow windows [] amountMinor nowMs merchantKey = .ok checked) :
    ∃ violation, violation.code = encode "SPEND_WINDOW_INVALID" ∧ ∀ existing,
      firstViolatedWindow windows existing amountMinor nowMs merchantKey = .ok (some violation) := by
  unfold firstViolatedWindow at config ⊢
  obtain ⟨problem, found, -⟩ := bind_ok config
  cases problem with
  | none => exact absurd (firstMisconfigured_none found) malformed
  | some violation =>
    refine ⟨violation, firstMisconfigured_code found, fun existing => ?_⟩
    rw [found]
    rfl

theorem alike_refused {violation violation' : Violation} (code : violation'.code = violation.code) :
    Alike (.ok (.reserved (.refused violation'))) (.ok (.reserved (.refused violation))) := by
  change Except.ok (LimiterAnswer.reserved (.refused ⟨violation'.code, []⟩)) =
    Except.ok (LimiterAnswer.reserved (.refused ⟨violation.code, []⟩))
  rw [code]

theorem Stores.same {t' : SpendTable} {b' : SpendBook} (stores : Stores t b) (rows : t'.rows = t.rows)
    (records : b'.records = b.records) : Stores t' b' where
  records := by rw [rows, stores.records, records]
  sound := by
    rw [rows]
    exact stores.sound

theorem bindNumbers_safe {req : ReserveRequest} (amount : IsAmount req.amountMinor)
    (clock : req.nowMs.isSafeInteger = true) : ∃ amountMinor occurredMs : ℤ,
      SpendTable.bindNumbers req = .ok (amountMinor, occurredMs) ∧ req.amountMinor = amountMinor ∧
        req.nowMs = occurredMs ∧ 0 ≤ amountMinor ∧ amountMinor < 2 ^ 53 ∧ |occurredMs| < 2 ^ 53 := by
  obtain ⟨a, nonneg, narrow, amountMinor⟩ := amount
  obtain ⟨ms, safe, nowMs⟩ := Number.isSafeInteger_iff.mp clock
  refine ⟨a, ms, ?_, amountMinor, nowMs, nonneg, narrow, safe⟩
  rw [SpendTable.bindNumbers, amountMinor, nowMs, bigint_safe (by rwa [abs_of_nonneg nonneg]),
    bigint_safe safe]
  rfl

/-- A new reservation whose windows are valid: the loaded rows decide as all the records do. -/
theorem Stores.reserve_unrefused (stores : Stores t b) (scan : Scan) {req : ReserveRequest}
    {checked : Option Violation} (valid : ∀ w ∈ req.windows, WellFormed w)
    (found : t.find req.reservationId = none) (same : b.find req.reservationId = none)
    (config : firstViolatedWindow req.windows [] req.amountMinor req.nowMs req.merchantKey = .ok checked)
    (alone : refusedAlone req = none)
    (fitting : ReserveFits req (b.budget (scopeKey req.scope req.currency))) :
    Alike (b.reserve req).1 (t.reserve scan req).1 ∧
      Stores (t.reserve scan req).2 (b.reserve req).2 := by
  obtain ⟨answer, records⟩ := SpendBook.reserve_new same
  obtain ⟨existing, loaded, amounts, totals⟩ :=
    @Stores.load t b stores scan req valid fun some => fitting.start some alone
  have held : ∀ r ∈ b.budget (scopeKey req.scope req.currency), IsAmount r.amountMinor :=
    fun r member => stores.isAmount r (List.mem_of_mem_filter member)
  have codes : (firstViolatedWindow req.windows existing req.amountMinor req.nowMs req.merchantKey).map
      (Option.map Violation.code) = (firstViolatedWindow req.windows
        (b.budget (scopeKey req.scope req.currency)) req.amountMinor req.nowMs req.merchantKey).map
          (Option.map Violation.code) :=
    firstViolatedWindow_code valid amounts held (fun w member => totals w member _)
      fun w member => totals w member _
  cases decided : firstViolatedWindow req.windows (b.budget (scopeKey req.scope req.currency))
      req.amountMinor req.nowMs req.merchantKey with
  | error thrown =>
    rcases firstViolatedWindow_cases valid (b.budget (scopeKey req.scope req.currency)) req.amountMinor
      req.nowMs req.merchantKey with ⟨-, message, refused⟩ | ⟨-, checked⟩
    · rw [decided] at refused
      cases refused
    · rw [decided] at checked
      cases checked
  | ok outcome =>
    cases reached : firstViolatedWindow req.windows existing req.amountMinor req.nowMs
        req.merchantKey with
    | error thrown =>
      rw [reached, decided] at codes
      cases codes
    | ok outcome' =>
      rw [reached, decided] at codes
      have code : outcome'.map Violation.code = outcome.map Violation.code := Except.ok.inj codes
      rw [decided] at answer records
      cases outcome with
      | some violation =>
        cases outcome' with
        | none => cases code
        | some violation' =>
          rw [reserve_refused found config alone loaded reached, answer]
          exact ⟨alike_refused (Option.some.inj code).symm, stores.same rfl records⟩
      | none =>
        cases outcome' with
        | some violation' => cases code
        | none =>
          have amount := (firstViolatedWindow_none held decided).1
          obtain ⟨amountMinor, occurredMs, bound, sameAmount, sameMs, nonneg, narrow, clock⟩ :=
            bindNumbers_safe amount (fitting.clock decided)
          obtain ⟨answer', rows⟩ := reserve_admitted found config alone loaded reached bound
          rw [answer, answer']
          refine ⟨rfl, ?_, ?_⟩
          · rw [rows, records, List.map_append, stores.records, List.map_singleton]
            simp [SpendRow.record, MemorySpendLimiter.record, sameAmount, sameMs]
          · rw [rows]
            intro row member
            rcases List.mem_append.mp member with old | new
            · exact stores.sound row old
            · rw [List.mem_singleton.mp new]
              exact ⟨nonneg, narrow, clock⟩

theorem Stores.reserve (stores : Stores t b) (scan : Scan) (req : ReserveRequest)
    (fits : b.find req.reservationId = none → (∀ w ∈ req.windows, WellFormed w) →
      ReserveFits req (b.budget (scopeKey req.scope req.currency))) :
    Alike (b.reserve req).1 (t.reserve scan req).1 ∧
      Stores (t.reserve scan req).2 (b.reserve req).2 := by
  have same := stores.find req.reservationId
  cases found : t.find req.reservationId with
  | some row =>
    rw [found, Option.map_some] at same
    rw [reserve_known found, SpendBook.reserve_known same]
    exact ⟨rfl, stores⟩
  | none =>
    rw [found, Option.map_none] at same
    obtain ⟨answer, records⟩ := SpendBook.reserve_new same
    cases config : firstViolatedWindow req.windows [] req.amountMinor req.nowMs req.merchantKey with
    | error thrown =>
      rw [firstViolatedWindow_error config] at answer records
      rw [reserve_thrown found config, answer]
      exact ⟨rfl, stores.same rfl records⟩
    | ok checked =>
      by_cases valid : ∀ w ∈ req.windows, WellFormed w
      · have fitting := fits same valid
        cases alone : refusedAlone req with
        | some violation =>
          obtain ⟨violation', refused, code⟩ := fitting.code violation alone
          rw [refused] at answer records
          rw [reserve_alone found alone, answer]
          exact ⟨alike_refused code, stores.same rfl records⟩
        | none =>
          exact stores.reserve_unrefused scan valid found same config alone fitting
      · -- a malformed window is refused by both under the same reason
        obtain ⟨violation, code, refused⟩ := firstViolatedWindow_malformed valid config
        have alone : refusedAlone req = some violation := by
          rw [refusedAlone, refused]
          exact if_pos code
        rw [refused] at answer records
        rw [reserve_alone found alone, answer]
        exact ⟨rfl, stores.same rfl records⟩

theorem Stores.commit (stores : Stores t b) (reservationId : JsString) :
    Stores (t.commit reservationId) (b.commit reservationId) where
  records := by
    change (t.rows.map _).map SpendRow.record = b.records.map (SpendBook.settle reservationId)
    rw [← stores.records, List.map_map, List.map_map]
    refine List.map_congr_left fun row _ => ?_
    rw [Function.comp_apply, Function.comp_apply, SpendBook.settle]
    split_ifs with same other other
    · rfl
    · exact absurd same other
    · exact absurd other same
    · rfl
  sound := by
    intro row member
    obtain ⟨old, held, rfl⟩ := List.mem_map.mp member
    obtain ⟨nonneg, amount, clock⟩ := stores.sound old held
    split_ifs
    · exact ⟨nonneg, amount, clock⟩
    · exact ⟨nonneg, amount, clock⟩

theorem Stores.keep (stores : Stores t b) {kept : SpendRow → Bool} {kept' : SpendRecord → Bool}
    (same : ∀ row ∈ t.rows, kept' row.record = kept row) : Stores (t.keep kept) (b.keep kept') where
  records := by
    change (t.rows.filter kept).map SpendRow.record = b.records.filter kept'
    rw [← stores.records, List.filter_map]
    exact congrArg _ (List.filter_congr fun row member => (same row member).symm)
  sound := fun row member => stores.sound row (List.mem_of_mem_filter member)

theorem Stores.pruneBefore (stores : Stores t b) {beforeMs : Number}
    (fits : (bigint beforeMs).isOk = true) :
    (t.pruneBefore beforeMs).1 =
        .ok (.removed (b.records.countP fun r => !decide (beforeMs ≤ r.ms))) ∧
      Stores (t.pruneBefore beforeMs).2 (b.pruneBefore beforeMs) := by
  cases bound : bigint beforeMs with
  | error thrown =>
    rw [bound] at fits
    cases fits
  | ok p =>
    obtain ⟨same, -⟩ := bigint_ok bound
    have old : ∀ row ∈ t.rows, decide (beforeMs ≤ row.record.ms) = !decide (row.occurredMs < p) := by
      intro row member
      have compared : decide ((p : Number) ≤ row.record.ms) = decide (p ≤ row.occurredMs) :=
        decide_eq_decide.mpr (intCast_le_iff (stores.sound row member).clock p).1
      rw [← same, compared, ← decide_not]
      exact decide_eq_decide.mpr not_lt.symm
    unfold SpendTable.pruneBefore
    rw [bound]
    refine ⟨?_, stores.keep old⟩
    rw [← stores.records, List.countP_map]
    refine congrArg (fun count => Except.ok (LimiterAnswer.removed count)) ?_
    exact List.countP_congr fun row member => by simp [old row member]

/-- The statement selects the rows that the list counts. -/
theorem Stores.after (stores : Stores t b) {scope currency : JsString} {since : Number}
    (instant : since.isSafeInteger = true ∨
      since.isFinite = false ∧ ∀ r ∈ b.budget (scopeKey scope currency), r.ms ≤ 0) :
    ∃ bound : ℤ, bigint (if since.isFinite then since else 0) = .ok bound ∧
      (t.after scope currency bound).map SpendRow.record =
        (b.budget (scopeKey scope currency)).filter fun r => !before since r := by
  suffices same : ∃ bound : ℤ, bigint (if since.isFinite then since else 0) = .ok bound ∧
      ∀ row ∈ t.rows, row.scope = scope → row.currency = currency →
        decide (bound < row.occurredMs) = !before since row.record by
    obtain ⟨bound, fits, same⟩ := same
    refine ⟨bound, fits, ?_⟩
    rw [stores.budget, List.filter_map, List.filter_filter, SpendTable.after]
    refine congrArg _ (List.filter_congr fun row member => ?_)
    by_cases own : row.scope = scope ∧ row.currency = currency
    · simp [own.1, own.2, same row member own.1 own.2]
    · have other : (decide (row.scope = scope) && decide (row.currency = currency)) = false := by
        simpa using own
      rw [other, Bool.false_and, Bool.and_false]
  rcases instant with safe | ⟨never, early⟩
  · obtain ⟨n, narrow, rfl⟩ := Number.isSafeInteger_iff.mp safe
    have finite : (n : Number).isFinite = true := by rw [Number.intCast_def narrow.le]; rfl
    refine ⟨n, by rw [if_pos finite, bigint_safe narrow], fun row member _ _ => ?_⟩
    have compared : decide (row.record.ms ≤ (n : Number)) = decide (row.occurredMs ≤ n) :=
      decide_eq_decide.mpr (intCast_le_iff (stores.sound row member).clock n).2
    rw [before, finite, Bool.not_true, Bool.false_or, compared, ← decide_not]
    exact decide_eq_decide.mpr not_le.symm
  · refine ⟨0, ?_, fun row member own own' => ?_⟩
    · rw [if_neg (by simp [never])]
      exact bigint_safe (by norm_num)
    · have first : row.record.ms ≤ 0 := early _ (by
        rw [stores.budget]
        exact List.mem_map_of_mem (List.mem_filter.mpr ⟨member, by simp [own, own']⟩))
      have le := (intCast_le_iff (stores.sound row member).clock 0).2.mp first
      rw [before, never, decide_eq_false (not_lt.mpr le)]
      rfl

/-- Numbers whose sum is exact give the sum of their integers. -/
theorem totalsOver_eq {since : Number} {records : List SpendRecord}
    (amounts : ∀ r ∈ records, IsAmount r.amountMinor)
    (sum : Rolling.total (before since · = false) SpendRecord.amount records < 2 ^ 53)
    (count : Rolling.total (before since · = false) (fun _ => (1 : ℤ)) records < 2 ^ 53) :
    totalsOver since records =
      .totals (Rolling.total (before since · = false) SpendRecord.amount records : ℤ)
        (Rolling.total (before since · = false) (fun _ => (1 : ℤ)) records : ℤ) := by
  have total : (records.foldl (addTotals since) (0, 0)).1.Tracks
      (Rolling.total (before since · = false) SpendRecord.amount records) :=
    foldl_tracks Prod.fst SpendRecord.amountMinor rfl (fun sums r _ => addTotals_fst since sums r)
      amounts
  have counted : (records.foldl (addTotals since) (0, 0)).2.Tracks
      (Rolling.total (before since · = false) (fun _ => (1 : ℤ)) records) := by
    rw [← toInt_one]
    exact foldl_tracks Prod.snd (fun _ => 1) rfl (fun sums r _ => addTotals_snd since sums r)
      fun _ _ => isAmount_one
  rw [totalsOver, total.exactly sum, counted.exactly count]

theorem Stores.totalsSince (stores : Stores t b) {scope currency : JsString} {since : Number}
    (fits : TotalsFit since (b.budget (scopeKey scope currency))) :
    t.totalsSince scope currency since =
      .ok (totalsOver since (b.budget (scopeKey scope currency))) := by
  obtain ⟨bound, bind, selected⟩ := stores.after fits.instant
  have rows : (b.budget (scopeKey scope currency)).filter (before since · = false) =
      (t.after scope currency bound).map SpendRow.record := by
    rw [selected]
    exact List.filter_congr fun r _ => by cases before since r <;> rfl
  have sum : Rolling.total (before since · = false) SpendRecord.amount
      (b.budget (scopeKey scope currency)) =
        ((t.after scope currency bound).map SpendRow.amountMinor).sum := by
    rw [Rolling.total, rows, List.map_map]
    refine congrArg List.sum (List.map_congr_left fun row member => ?_)
    exact (stores.sound row (List.mem_of_mem_filter member)).toInt_amount
  have count : Rolling.total (before since · = false) (fun _ => (1 : ℤ))
      (b.budget (scopeKey scope currency)) = (t.after scope currency bound).length := by
    rw [Rolling.total, rows, List.map_map]
    simp [Function.comp_def]
  have nonneg : 0 ≤ ((t.after scope currency bound).map SpendRow.amountMinor).sum :=
    List.sum_nonneg fun n member => by
      obtain ⟨row, held, rfl⟩ := List.mem_map.mp member
      exact (stores.sound row (List.mem_of_mem_filter held)).nonneg
  have amounts : ∀ r ∈ b.budget (scopeKey scope currency), IsAmount r.amountMinor :=
    fun r member => stores.isAmount r (List.mem_of_mem_filter member)
  have sumFits := fits.sum
  have countFits := fits.count
  rw [totalsOver_eq amounts sumFits countFits, SpendTable.totalsSince, bind, ok_bind, sum, count]
  rw [sum, ← abs_of_nonneg nonneg] at sumFits
  rw [count, ← abs_of_nonneg (Int.natCast_nonneg _)] at countFits
  dsimp only
  rw [toSafeInt_safe sumFits, ok_bind, toSafeInt_safe countFits]
  rfl

/-- One call that fits is answered alike and leaves the two alike. -/
theorem step_alike (dateParse : JsString → Number) (scan : Scan) (stores : Stores t b) (op : LimiterOp)
    (fits : Fits dateParse (fun id => (b.find id).isSome) b.budget op) :
    Alike (b.step dateParse op).1 (t.step dateParse scan op).1 ∧
      Stores (t.step dateParse scan op).2 (b.step dateParse op).2 := by
  cases op with
  | reserve req =>
    refine stores.reserve scan req fun new valid => fits ?_ valid
    dsimp only
    rw [new]
    rfl
  | commit reservationId => exact ⟨rfl, stores.commit reservationId⟩
  | release reservationId =>
    exact ⟨rfl, stores.keep fun row _ => rfl⟩
  | pruneBefore beforeMs =>
    obtain ⟨counted, pruned⟩ := stores.pruneBefore fits
    exact ⟨congrArg (Except.map gist) counted.symm, pruned⟩
  | totalsSince scope sinceIso currency =>
    exact ⟨congrArg (Except.map gist) (stores.totalsSince fits).symm, stores⟩

end Steps
/-! ### Whole runs -/

/-- The calls for which the table is good, asked of the reference limiter in the state they meet. -/
def FitsMaps (dateParse : JsString → Number) (m : MapLimiter) (call : LimiterOp × Scan) : Prop :=
  Fits dateParse (fun id => (m.limiter.byId id).isSome) m.limiter.recordsAt call.1

def playMaps (dateParse : JsString → Number) : List (LimiterOp × Scan) →
    List (Throwing LimiterAnswer) × MapLimiter :=
  Machine.play (fun m call => m.step dateParse call.1) .empty

def playTable (dateParse : JsString → Number) : List (LimiterOp × Scan) →
    List (Throwing LimiterAnswer) × SpendTable :=
  Machine.play (fun t call => t.step dateParse call.2 call.1) .empty

/-- The maps and the table hold the records of one list. -/
def Related (m : MapLimiter) (t : SpendTable) : Prop := ∃ b, m.Mirrors b ∧ Stores t b

theorem Related.records {m : MapLimiter} {t : SpendTable} (related : Related m t) (q : SpendRecord) :
    (∃ row ∈ t.rows, row.record = q) ↔ m.limiter.byId q.reservationId = some q := by
  obtain ⟨b, mirrors, stores⟩ := related
  rw [mirrors.byId, b.find_some_iff, ← stores.records, List.mem_map, and_iff_left rfl]

theorem Related.step {dateParse : JsString → Number} {m : MapLimiter} {t : SpendTable}
    {call : LimiterOp × Scan} (related : Related m t) (fits : FitsMaps dateParse m call) :
    Alike (m.step dateParse call.1).1 (t.step dateParse call.2 call.1).1 ∧
      Related (m.step dateParse call.1).2 (t.step dateParse call.2 call.1).2 := by
  obtain ⟨b, mirrors, stores⟩ := related
  obtain ⟨same, mirrored⟩ := MapLimiter.step_mirrors dateParse m b mirrors call.1
  have known : (fun id => (m.limiter.byId id).isSome) = fun id => (b.find id).isSome :=
    funext fun id => congrArg Option.isSome (mirrors.byId id)
  rw [FitsMaps, known, funext mirrors.recordsAt] at fits
  obtain ⟨alike, stored⟩ := step_alike dateParse call.2 stores call.1 fits
  exact ⟨same ▸ alike, _, mirrored, stored⟩

/-- Over a whole run of calls that fit, the limiter over the table gives the answers of the one in
memory, and holds the same records at the end. -/
theorem table_refines_maps (dateParse : JsString → Number) (calls : List (LimiterOp × Scan))
    (fits : Machine.Permitted (fun m call => m.step dateParse call.1) (FitsMaps dateParse) .empty calls) :
    List.Forall₂ Alike (playMaps dateParse calls).1 (playTable dateParse calls).1 ∧
      ∀ q, (∃ row ∈ (playTable dateParse calls).2.rows, row.record = q) ↔
        (playMaps dateParse calls).2.limiter.byId q.reservationId = some q := by
  have start : Related .empty .empty := ⟨.empty, MapLimiter.mirrors_empty, stores_empty⟩
  obtain ⟨answers, last⟩ := Machine.play_alike
    (fun _ t call related fits => @Related.step dateParse _ t call related fits) start fits
  exact ⟨answers, last.records⟩

namespace Sample

def inOrder : Scan := ⟨id, .refl⟩

def request : ReserveRequest where
  reservationId := "i-1"
  scope := "p-1"
  currency := "USD"
  amountMinor := 100
  nowMs := 1780000000000
  windows := [⟨encode "PER_DAY_LIMIT_EXCEEDED", .number 86400000, .number 1000, .undefined, .undefined⟩]
  merchantKey := none

/-- One instant that parses, and no other. -/
def dateParse (iso : JsString) : Number :=
  if iso = encode "2026-05-27T20:26:40.000Z" then 1779913600000 else .nan

def calls (sinceIso : JsString) : List (LimiterOp × Scan) :=
  [(.reserve request, inOrder), (.totalsSince "p-1" sinceIso "USD", inOrder)]

def spent : SpendRecord := MemorySpendLimiter.record request

theorem checked : refusedAlone request = none ∧
    (bigint (request.nowMs - widest request.windows)).isOk = true ∧
    request.nowMs.isSafeInteger = true ∧ dateParse "2026-05-27T20:26:40.000Z" = 1779913600000 ∧
    (1779913600000 : Number).isSafeInteger = true ∧
    (MapLimiter.empty.step dateParse (.reserve request)).2.limiter.recordsAt
      (scopeKey (encode "p-1") (encode "USD")) = [spent] ∧
    Rolling.total (before 1779913600000 · = false) SpendRecord.amount [spent] < 2 ^ 53 ∧
    Rolling.total (before 1779913600000 · = false) (fun _ => (1 : ℤ)) [spent] < 2 ^ 53 := by
  decide +kernel

theorem fits : Machine.Permitted (fun m call => m.step dateParse call.1) (FitsMaps dateParse) .empty
    (calls "2026-05-27T20:26:40.000Z") := by
  obtain ⟨alone, start, clock, instant, safe, held, sum, count⟩ := checked
  refine ⟨fun _ _ => ⟨fun _ _ => start, fun violation refused => ?_, fun _ => clock⟩, ?_, trivial⟩
  · rw [alone] at refused
    cases refused
  · change TotalsFit (dateParse "2026-05-27T20:26:40.000Z") (MapLimiter.limiter _ |>.recordsAt _)
    rw [instant]
    exact ⟨.inl safe, held ▸ sum, held ▸ count⟩

end Sample

theorem spend_totalled_alike :
    (playMaps Sample.dateParse (Sample.calls "2026-05-27T20:26:40.000Z")).2.limiter.byId "i-1" =
        some Sample.spent ∧
      ∃ row ∈ (playTable Sample.dateParse (Sample.calls "2026-05-27T20:26:40.000Z")).2.rows,
        row.record = Sample.spent := by
  have held : (playMaps Sample.dateParse (Sample.calls "2026-05-27T20:26:40.000Z")).2.limiter.byId
      "i-1" = some Sample.spent := by decide +kernel
  exact ⟨held, ((table_refines_maps Sample.dateParse _ Sample.fits).2 Sample.spent).mpr held⟩

/-- After an instant that does not parse, memory counts nothing and the table everything. -/
theorem totals_since_garbage :
    (playMaps Sample.dateParse (Sample.calls "garbage")).1.map Except.toOption =
        [some (.reserved (.ok "i-1" false none)), some (.totals 0 0)] ∧
      (playTable Sample.dateParse (Sample.calls "garbage")).1.map Except.toOption =
        [some (.reserved (.ok "i-1" false none)), some (.totals 100 1)] := by
  decide +kernel

end Vaduno.Postgres
