import Vaduno.Ecma.Json
import Vaduno.Rolling

/-! Rolling spend windows: the check of a window's own configuration, and the check of one more
spend against every window of a list. Window configuration comes from policy files, so its fields
are arbitrary values until they are checked. -/
namespace Vaduno.Enforce
open Ecma

structure SpendWindow where
  /-- The denial code reported when this window refuses. -/
  code : JsString
  windowMs : JsValue
  capMinor : JsValue
  maxCount : JsValue
  dimension : JsValue

inductive ReservationState
  | reserved
  | committed
  deriving DecidableEq

structure SpendRecord where
  reservationId : JsString
  /-- The operator's budget scope, never an agent id. -/
  scope : JsString
  currency : JsString
  amountMinor : Number
  ms : Number
  merchantKey : Option JsString
  state : ReservationState
  deriving DecidableEq

structure Violation where
  code : JsString
  message : JsString
  deriving DecidableEq

/-- `typeof v === "number" && Number.isFinite(v) && !(v <= 0)`. -/
def isPositiveFinite : JsValue → Bool
  | .number n => n.isFinite && !decide (n ≤ 0)
  | _ => false

/-- `Number.isSafeInteger(v) && !(v < least)`. -/
def isSafeFrom (least : Number) : JsValue → Bool
  | .number n => n.isSafeInteger && !decide (n < least)
  | _ => false

def isUndefined : JsValue → Bool
  | .undefined => true
  | _ => false

def isText (text : JsString) : JsValue → Bool
  | .string s => s = text
  | _ => false

/-- Why a window's configuration enforces nothing, or `none` when it can. The text of the
offending value goes into the reason, and taking it can itself throw. -/
def windowConfigError (w : SpendWindow) : Throwing (Option JsString) := do
  if !isPositiveFinite w.windowMs then
    return some ("windowMs " ++ (← w.windowMs.toText) ++ " is not a positive finite number")
  if !isUndefined w.capMinor && !isSafeFrom 0 w.capMinor then
    return some ("capMinor " ++ (← w.capMinor.toText) ++ " is not a non-negative safe integer")
  if !isUndefined w.maxCount && !isSafeFrom 1 w.maxCount then
    return some ("maxCount " ++ (← w.maxCount.toText) ++ " is not a positive integer")
  if isUndefined w.capMinor && isUndefined w.maxCount then
    return some "neither capMinor nor maxCount is set — the window would enforce nothing"
  if !isUndefined w.dimension && !isText "scope" w.dimension && !isText "merchant" w.dimension then
    return some ("dimension " ++ ((← w.dimension.stringify).getD "undefined") ++
      " is not \"scope\" or \"merchant\"")
  return none

/-- The first misconfigured window, every window being looked at before any cap is. -/
def firstMisconfigured : List SpendWindow → Throwing (Option Violation)
  | [] => return none
  | w :: rest => do
    match ← windowConfigError w with
    | some problem => return some {
        code := "SPEND_WINDOW_INVALID"
        message := "window \"" ++ w.code ++ "\" is misconfigured (" ++ problem ++
          "); refusing everything under this policy rather than enforcing nothing" }
    | none => firstMisconfigured rest

/-- A number that a configuration check let through. -/
def checkedNumber : JsValue → Number
  | .number n => n
  | _ => .nan

def perMerchant (w : SpendWindow) : Bool := isText "merchant" w.dimension

/-- Whether the sums of `w` skip record `r` at cutoff `since`. A keyless record counts for every
merchant. -/
def skips (w : SpendWindow) (merchantKey : Option JsString) (since : Number) (r : SpendRecord) :
    Bool :=
  decide (r.ms ≤ since) ||
    (perMerchant w && r.merchantKey.isSome && decide (r.merchantKey ≠ merchantKey))

structure WindowTotals where
  totalMinor : Number
  count : Number

def addRecord (w : SpendWindow) (merchantKey : Option JsString) (since : Number)
    (totals : WindowTotals) (r : SpendRecord) : WindowTotals :=
  if skips w merchantKey since r then totals
  else ⟨totals.totalMinor + r.amountMinor, totals.count + 1⟩

def windowTotals (w : SpendWindow) (existing : List SpendRecord) (nowMs : Number)
    (merchantKey : Option JsString) : WindowTotals :=
  existing.foldl (addRecord w merchantKey (nowMs - checkedNumber w.windowMs)) ⟨0, 0⟩

/-- One well-formed window against the records it counts. -/
def windowViolation (w : SpendWindow) (existing : List SpendRecord) (amountMinor nowMs : Number)
    (merchantKey : Option JsString) : Option Violation :=
  if perMerchant w && merchantKey.isNone then
    some {
      code := "MERCHANT_KEY_MISSING"
      message := "window \"" ++ w.code ++
        "\" counts per merchant but the request carries no merchantKey" }
  else
    let totals := windowTotals w existing nowMs merchantKey
    let cap := checkedNumber w.capMinor
    let limit := checkedNumber w.maxCount
    if !isUndefined w.capMinor &&
        (!totals.totalMinor.isSafeInteger || decide (cap < totals.totalMinor + amountMinor)) then
      some {
        code := w.code
        message := "spent " ++ totals.totalMinor.toText ++ " in window; +" ++ amountMinor.toText ++
          " would exceed limit " ++ cap.toText }
    else if !isUndefined w.maxCount && decide (limit < totals.count + 1) then
      some {
        code := w.code
        message := totals.count.toText ++ " transactions in window; limit is " ++ limit.toText }
    else none

/-- The first window that refuses one more spend of `amountMinor`, if any does. -/
def firstViolatedWindow (windows : List SpendWindow) (existing : List SpendRecord)
    (amountMinor nowMs : Number) (merchantKey : Option JsString) : Throwing (Option Violation) := do
  match ← firstMisconfigured windows with
  | some violation => return some violation
  | none =>
    if !amountMinor.isSafeInteger || decide (amountMinor < 0) then
      return some {
        code := "SPEND_AMOUNT_INVALID"
        message := "amount " ++ amountMinor.toText ++ " is not a non-negative safe integer" }
    return windows.findSome? (windowViolation · existing amountMinor nowMs merchantKey)

/-! What a list of windows lets through, in exact integers. -/

/-- The exact minor units of a record. -/
def SpendRecord.amount (r : SpendRecord) : ℤ := r.amountMinor.toInt

/-- The amount is a non-negative safe integer, as the check before an admission requires. -/
def IsAmount (x : Number) : Prop := ∃ n : ℤ, 0 ≤ n ∧ n < 2 ^ 53 ∧ x = n

theorem isAmount_of_checked {x : Number} (safe : x.isSafeInteger = true) (nonneg : ¬x < 0) :
    IsAmount x := by
  obtain ⟨n, narrow, rfl⟩ := Number.isSafeInteger_iff.mp safe
  refine ⟨n, ?_, (abs_lt.mp narrow).2, rfl⟩
  by_contra negative
  exact nonneg ((Number.intCast_lt narrow.le (by norm_num)).mpr (by omega))

theorem IsAmount.toInt_nonneg {x : Number} (amount : IsAmount x) : 0 ≤ x.toInt := by
  obtain ⟨n, nonneg, narrow, rfl⟩ := amount
  rwa [Number.toInt_intCast (by rw [abs_of_nonneg nonneg]; omega)]

theorem IsAmount.eq_toInt {x : Number} (amount : IsAmount x) : x = (x.toInt : ℤ) := by
  obtain ⟨n, nonneg, narrow, rfl⟩ := amount
  rw [Number.toInt_intCast (by rw [abs_of_nonneg nonneg]; omega)]

theorem IsAmount.toInt_lt {x : Number} (amount : IsAmount x) : x.toInt < 2 ^ 53 := by
  obtain ⟨n, nonneg, narrow, rfl⟩ := amount
  rwa [Number.toInt_intCast (by rw [abs_of_nonneg nonneg]; omega)]

/-- The records window `w` sums for one merchant at a cutoff. -/
def Counted (w : SpendWindow) (merchantKey : Option JsString) (since : Number)
    (r : SpendRecord) : Prop := skips w merchantKey since r = false

instance : DecidablePred (Counted w merchantKey since) := fun _ => inferInstanceAs (Decidable (_ = _))

/-- A running figure over a list follows the exact sum of what it does not pass over. -/
theorem foldl_tracks {ι κ : Type} (figure : κ → Number) (weight : ι → Number) {next : κ → ι → κ}
    {init : κ} {skip : ι → Bool} {items : List ι} (zero : figure init = 0)
    (steps : ∀ k, ∀ i ∈ items, figure (next k i) = if skip i then figure k else figure k + weight i)
    (amounts : ∀ i ∈ items, IsAmount (weight i)) :
    (figure (items.foldl next init)).Tracks
      (Rolling.total (skip · = false) (fun i => (weight i).toInt) items) := by
  induction items using List.reverseRecOn with
  | nil =>
    rw [List.foldl_nil, zero]
    exact Number.tracks_zero
  | append_singleton earlier i ih =>
    have last : i ∈ earlier ++ [i] := by simp
    have before : ∀ j ∈ earlier, j ∈ earlier ++ [i] := fun j => List.mem_append_left [i]
    have tracked := ih (fun k j member => steps k j (before j member))
      fun j member => amounts j (before j member)
    rw [List.foldl_append, List.foldl_cons, List.foldl_nil, steps _ i last, Rolling.total_append,
      Rolling.total_singleton]
    by_cases skipped : skip i = true
    · simpa [skipped] using tracked
    · rw [if_neg skipped, if_pos (Bool.eq_false_of_not_eq_true skipped)]
      have nonneg := Rolling.total_nonneg (skip · = false) _
        fun j member => (amounts j (before j member)).toInt_nonneg
      have added := tracked.add nonneg (amounts i last).toInt_nonneg (amounts i last).toInt_lt
      rwa [← (amounts i last).eq_toInt] at added

/-- A running figure whose exact sum is safe does not depend on the order of the items. -/
theorem foldl_perm {ι κ : Type} (figure : κ → Number) (weight : ι → Number) {next : κ → ι → κ}
    {init : κ} {skip : ι → Bool} {items more : List ι} (zero : figure init = 0)
    (steps : ∀ k i, figure (next k i) = if skip i then figure k else figure k + weight i)
    (amounts : ∀ i ∈ items, IsAmount (weight i)) (perm : items.Perm more)
    (safe : Rolling.total (skip · = false) (fun i => (weight i).toInt) items < 2 ^ 53) :
    figure (items.foldl next init) = figure (more.foldl next init) := by
  have left := foldl_tracks figure weight zero (fun k i _ => steps k i) amounts
  have right := foldl_tracks figure weight zero (fun k i _ => steps k i)
    fun i member => amounts i (perm.mem_iff.mpr member)
  rw [← Rolling.total_perm _ _ perm] at right
  rw [left.exactly safe, right.exactly safe]

/-- Neither does a count, however far it runs. -/
theorem foldl_count_perm {ι κ : Type} (figure : κ → Number) {next : κ → ι → κ} {init : κ}
    {skip : ι → Bool} {items more : List ι}
    (steps : ∀ k i, figure (next k i) = if skip i then figure k else figure k + 1)
    (perm : items.Perm more) : figure (items.foldl next init) = figure (more.foldl next init) := by
  have counts : ∀ list : List ι, figure (list.foldl next init) =
      list.foldl (fun count i => if skip i then count else count + 1) (figure init) :=
    fun list => (List.foldl_hom figure fun k i => (steps k i).symm).symm
  rw [counts, counts]
  refine perm.foldl_eq' (fun i _ j _ count => ?_) _
  split_ifs
  · rfl
  · rfl
  · rfl
  · rfl

theorem isAmount_one : IsAmount 1 := ⟨1, by norm_num, by norm_num, rfl⟩

theorem toInt_one : Number.toInt 1 = 1 := Number.toInt_intCast (n := 1) (by norm_num)

/-- The floating-point sums of a window agree with the exact ones as long as these stay safe. -/
theorem windowTotals_tracks (w : SpendWindow) (existing : List SpendRecord) (nowMs : Number)
    (merchantKey : Option JsString) (amounts : ∀ r ∈ existing, IsAmount r.amountMinor) :
    let since := nowMs - checkedNumber w.windowMs
    let totals := windowTotals w existing nowMs merchantKey
    totals.totalMinor.Tracks
        (Rolling.total (Counted w merchantKey since) SpendRecord.amount existing) ∧
      totals.count.Tracks (Rolling.total (Counted w merchantKey since) (fun _ => 1) existing) := by
  constructor
  · refine foldl_tracks WindowTotals.totalMinor SpendRecord.amountMinor rfl (fun totals r _ => ?_)
      amounts
    exact apply_ite WindowTotals.totalMinor _ _ _
  · have steps : ∀ totals, ∀ r ∈ existing,
        (addRecord w merchantKey (nowMs - checkedNumber w.windowMs) totals r).count =
          if skips w merchantKey (nowMs - checkedNumber w.windowMs) r then totals.count
          else totals.count + 1 := fun totals r _ => apply_ite WindowTotals.count _ _ _
    rw [← toInt_one]
    exact foldl_tracks WindowTotals.count (fun _ => 1) rfl steps fun _ _ => isAmount_one

/-- What a well-formed window requires of one more spend, in exact integers. -/
structure Admits (w : SpendWindow) (existing : List SpendRecord) (amountMinor nowMs : Number)
    (merchantKey : Option JsString) : Prop where
  keyed : perMerchant w = true → merchantKey.isSome = true
  cap : ∀ c, w.capMinor = .number c →
    Rolling.total (Counted w merchantKey (nowMs - checkedNumber w.windowMs)) SpendRecord.amount
      existing + amountMinor.toInt ≤ c.toInt
  count : ∀ c, w.maxCount = .number c →
    Rolling.total (Counted w merchantKey (nowMs - checkedNumber w.windowMs)) (fun _ => 1)
      existing + 1 ≤ c.toInt

/-- A safe limit, once checked, is an exact integer. -/
theorem isSafeFrom_number {least : Number} (safe : isSafeFrom least (.number c) = true) :
    ∃ n : ℤ, |n| < 2 ^ 53 ∧ c = n := by
  simp only [isSafeFrom, Bool.and_eq_true] at safe
  exact Number.isSafeInteger_iff.mp safe.1

/-- A window's configuration can be enforced. -/
structure WellFormed (w : SpendWindow) : Prop where
  length : isPositiveFinite w.windowMs = true
  cap : isUndefined w.capMinor = true ∨ isSafeFrom 0 w.capMinor = true
  count : isUndefined w.maxCount = true ∨ isSafeFrom 1 w.maxCount = true
  limited : isUndefined w.capMinor = false ∨ isUndefined w.maxCount = false
  dimension : isUndefined w.dimension = true ∨ isText "scope" w.dimension = true ∨
    isText "merchant" w.dimension = true

private theorem explains_ne_none (x : Throwing α) (reason : α → JsString) :
    (do return some (reason (← x)) : Throwing (Option JsString)) ≠ .ok none := by
  cases x <;> simp [bind, Except.bind, pure, Except.pure]

/-- The configuration check passes exactly the windows that can be enforced. -/
theorem windowConfigError_none_iff (w : SpendWindow) :
    windowConfigError w = .ok none ↔ WellFormed w := by
  unfold windowConfigError
  constructor
  · intro passed
    split_ifs at passed with length cap count limited dimension
    · exact absurd passed (explains_ne_none _ _)
    · exact absurd passed (explains_ne_none _ _)
    · exact absurd passed (explains_ne_none _ _)
    · cases passed
    · exact absurd passed (explains_ne_none _ _)
    · constructor <;> simp_all <;> grind
  · rintro ⟨length, cap, count, limited, dimension⟩
    simp only [length, Bool.not_true, Bool.false_eq_true, if_false]
    rw [if_neg (by simp; grind), if_neg (by simp; grind), if_neg (by simp; grind),
      if_neg (by simp; grind)]
    rfl

theorem firstMisconfigured_none {windows : List SpendWindow}
    (passed : firstMisconfigured windows = .ok none) : ∀ w ∈ windows, WellFormed w := by
  induction windows with
  | nil => simp
  | cons w rest ih =>
    obtain ⟨problem, checked, remaining⟩ := bind_ok passed
    cases problem with
    | some problem => cases remaining
    | none =>
      intro v member
      rcases List.mem_cons.mp member with rfl | later
      · exact (windowConfigError_none_iff v).mp checked
      · exact ih remaining v later

theorem firstMisconfigured_of_wellFormed {windows : List SpendWindow}
    (valid : ∀ w ∈ windows, WellFormed w) : firstMisconfigured windows = .ok none := by
  induction windows with
  | nil => rfl
  | cons w rest ih =>
    rw [firstMisconfigured, (windowConfigError_none_iff w).mpr (valid w (by simp))]
    exact ih fun v member => valid v (List.mem_cons_of_mem w member)

/-- Where every window can be enforced, the first check is of the amount, and then every window is
looked at in turn. -/
theorem firstViolatedWindow_cases {windows : List SpendWindow} (valid : ∀ w ∈ windows, WellFormed w)
    (existing : List SpendRecord) (amountMinor nowMs : Number) (merchantKey : Option JsString) :
    let usable := amountMinor.isSafeInteger && !decide (amountMinor < 0)
    usable = false ∧ (∃ message, firstViolatedWindow windows existing amountMinor nowMs merchantKey =
        .ok (some ⟨"SPEND_AMOUNT_INVALID", message⟩)) ∨
      usable = true ∧ firstViolatedWindow windows existing amountMinor nowMs merchantKey =
        .ok (windows.findSome? (windowViolation · existing amountMinor nowMs merchantKey)) := by
  intro usable
  unfold firstViolatedWindow
  rw [firstMisconfigured_of_wellFormed valid, ok_bind]
  by_cases refused : (!amountMinor.isSafeInteger || decide (amountMinor < 0)) = true
  · refine .inl ⟨?_, _, if_pos refused⟩
    rw [← Bool.not_eq_true', Bool.not_and, Bool.not_not]
    exact refused
  · refine .inr ⟨?_, if_neg refused⟩
    rw [Bool.not_eq_true, ← Bool.not_eq_true', Bool.not_or, Bool.not_not] at refused
    exact refused

/-- A window that raises no violation admits the spend exactly. -/
theorem windowViolation_none {existing : List SpendRecord} (wellFormed : WellFormed w)
    (amounts : ∀ r ∈ existing, IsAmount r.amountMinor) (amount : IsAmount amountMinor)
    (silent : windowViolation w existing amountMinor nowMs merchantKey = none) :
    Admits w existing amountMinor nowMs merchantKey := by
  obtain ⟨spent, counted⟩ := windowTotals_tracks w existing nowMs merchantKey amounts
  unfold windowViolation at silent
  split_ifs at silent with keyless
  simp only at silent
  split_ifs at silent with overspent crowded
  refine ⟨fun merchant => ?_, fun c limit => ?_, fun c limit => ?_⟩
  · simpa [merchant, Option.isSome_iff_ne_none] using keyless
  · have safe : isSafeFrom 0 (.number c) = true := by
      simpa [limit, isUndefined] using wellFormed.cap
    obtain ⟨n, narrow, rfl⟩ := isSafeFrom_number safe
    rw [Number.toInt_intCast narrow.le]
    have added := spent.add (Rolling.total_nonneg _ _ fun r member => (amounts r member).toInt_nonneg)
      amount.toInt_nonneg amount.toInt_lt
    rw [← amount.eq_toInt] at added
    by_contra exceeded
    exact overspent (by simp [limit, isUndefined, checkedNumber, added.lt narrow (not_le.mp exceeded)])
  · have safe : isSafeFrom 1 (.number c) = true := by
      simpa [limit, isUndefined] using wellFormed.count
    obtain ⟨n, narrow, rfl⟩ := isSafeFrom_number safe
    rw [Number.toInt_intCast narrow.le]
    have added := counted.add (n := 1)
      (Rolling.total_nonneg _ _ fun _ _ => by norm_num) (by norm_num) (by norm_num)
    by_contra exceeded
    have past : (n : Number) < (windowTotals w existing nowMs merchantKey).count + 1 :=
      added.lt narrow (not_le.mp exceeded)
    exact crowded (by simpa [limit, isUndefined, checkedNumber] using past)

/-- What goes past a limit, if there is one. -/
def pastLimit : JsValue → ℤ → Bool
  | .number limit, n => decide (limit.toInt < n)
  | _, _ => false

/-- The cap is exceeded exactly where the exact sum exceeds it. -/
theorem cap_exceeded {spent : Number} {exact : ℤ}
    (checked : isUndefined limit = true ∨ isSafeFrom 0 limit = true) (tracks : spent.Tracks exact)
    (nonneg : 0 ≤ exact) (amount : IsAmount amountMinor) :
    (!isUndefined limit && (!spent.isSafeInteger ||
      decide (checkedNumber limit < spent + amountMinor))) =
        pastLimit limit (exact + amountMinor.toInt) := by
  cases limit with
  | number c =>
    obtain ⟨n, narrow, rfl⟩ := isSafeFrom_number (checked.resolve_left (by simp [isUndefined]))
    have added := tracks.add nonneg amount.toInt_nonneg amount.toInt_lt
    rw [← amount.eq_toInt] at added
    have past : (n : Number) < spent + amountMinor ↔ n < exact + amountMinor.toInt :=
      added.lt_iff narrow
    have coarse : spent.isSafeInteger = false → n < exact + amountMinor.toInt := fun coarse => by
      have := tracks.large nonneg coarse
      have := abs_lt.mp narrow
      have := amount.toInt_nonneg
      omega
    rw [pastLimit, Number.toInt_intCast narrow.le, Bool.eq_iff_iff]
    simp only [isUndefined, checkedNumber, Bool.not_false, Bool.true_and, Bool.or_eq_true,
      Bool.not_eq_true', decide_eq_true_eq, past]
    exact or_iff_right_of_imp coarse
  | undefined => rfl
  | _ => simp [isUndefined, isSafeFrom] at checked

/-- The count is exceeded exactly where the exact count exceeds it. -/
theorem count_exceeded {count : Number} {exact : ℤ}
    (checked : isUndefined limit = true ∨ isSafeFrom 1 limit = true) (tracks : count.Tracks exact)
    (nonneg : 0 ≤ exact) :
    (!isUndefined limit && decide (checkedNumber limit < count + 1)) =
      pastLimit limit (exact + 1) := by
  cases limit with
  | number c =>
    obtain ⟨n, narrow, rfl⟩ := isSafeFrom_number (checked.resolve_left (by simp [isUndefined]))
    have past : (n : Number) < count + 1 ↔ n < exact + 1 :=
      (tracks.add (n := 1) nonneg (by norm_num) (by norm_num)).lt_iff narrow
    rw [pastLimit, Number.toInt_intCast narrow.le, Bool.eq_iff_iff]
    simp [isUndefined, checkedNumber, past]
  | undefined => rfl
  | _ => simp [isUndefined, isSafeFrom] at checked

/-- A spend that the window can attribute violates it exactly where it goes past one of its limits. -/
theorem windowViolation_isSome {existing : List SpendRecord} (wellFormed : WellFormed w)
    (amounts : ∀ r ∈ existing, IsAmount r.amountMinor) (amount : IsAmount amountMinor)
    (keyed : (perMerchant w && merchantKey.isNone) = false) :
    let counted := Counted w merchantKey (nowMs - checkedNumber w.windowMs)
    (windowViolation w existing amountMinor nowMs merchantKey).isSome =
      (pastLimit w.capMinor
          (Rolling.total counted SpendRecord.amount existing + amountMinor.toInt) ||
        pastLimit w.maxCount (Rolling.total counted (fun _ => 1) existing + 1)) := by
  intro counted
  obtain ⟨spent, count⟩ := windowTotals_tracks w existing nowMs merchantKey amounts
  rw [← cap_exceeded wellFormed.cap spent
      (Rolling.total_nonneg _ _ fun r member => (amounts r member).toInt_nonneg) amount,
    ← count_exceeded wellFormed.count count (Rolling.total_nonneg _ _ fun _ _ => by norm_num)]
  unfold windowViolation
  rw [if_neg (by simp [keyed])]
  dsimp only
  split_ifs with overspent crowded
  · simp [overspent]
  · simp [crowded]
  · simp [overspent, crowded]

theorem windowViolation_code {existing : List SpendRecord} {violation : Violation}
    (violated : windowViolation w existing amountMinor nowMs merchantKey = some violation) :
    violation.code =
      if perMerchant w && merchantKey.isNone then encode "MERCHANT_KEY_MISSING" else w.code := by
  unfold windowViolation at violated
  split_ifs at violated with keyless
  · cases violated
    exact (if_pos keyless).symm
  · dsimp only at violated
    rw [if_neg keyless]
    split_ifs at violated
    · cases violated
      rfl
    · cases violated
      rfl

theorem findSome?_congr {ι κ : Type} {f g : ι → Option κ} {items : List ι}
    (same : ∀ i ∈ items, f i = g i) : items.findSome? f = items.findSome? g := by
  induction items with
  | nil => rfl
  | cons i rest ih =>
    rw [List.findSome?_cons, List.findSome?_cons, same i (by simp),
      ih fun j member => same j (List.mem_cons_of_mem i member)]

/-- Over records with the same totals, the first refusal has the same code. -/
theorem firstViolatedWindow_code {existing existing' : List SpendRecord}
    (valid : ∀ w ∈ windows, WellFormed w) (amounts : ∀ r ∈ existing, IsAmount r.amountMinor)
    (amounts' : ∀ r ∈ existing', IsAmount r.amountMinor)
    (spent : ∀ w ∈ windows,
      Rolling.total (Counted w merchantKey (nowMs - checkedNumber w.windowMs)) SpendRecord.amount
        existing =
      Rolling.total (Counted w merchantKey (nowMs - checkedNumber w.windowMs)) SpendRecord.amount
        existing')
    (counted : ∀ w ∈ windows,
      Rolling.total (Counted w merchantKey (nowMs - checkedNumber w.windowMs)) (fun _ => (1 : ℤ))
        existing =
      Rolling.total (Counted w merchantKey (nowMs - checkedNumber w.windowMs)) (fun _ => (1 : ℤ))
        existing') :
    (firstViolatedWindow windows existing amountMinor nowMs merchantKey).map
        (Option.map Violation.code) =
      (firstViolatedWindow windows existing' amountMinor nowMs merchantKey).map
        (Option.map Violation.code) := by
  rcases firstViolatedWindow_cases valid existing amountMinor nowMs merchantKey with
    ⟨unusable, message, refused⟩ | ⟨usable, checked⟩
  · rcases firstViolatedWindow_cases valid existing' amountMinor nowMs merchantKey with
      ⟨-, message', refused'⟩ | ⟨usable, -⟩
    · rw [refused, refused']
      rfl
    · rw [unusable] at usable
      cases usable
  rcases firstViolatedWindow_cases valid existing' amountMinor nowMs merchantKey with
    ⟨unusable, -⟩ | ⟨-, checked'⟩
  · rw [usable] at unusable
    cases unusable
  have amount : IsAmount amountMinor := by
    rw [Bool.and_eq_true, Bool.not_eq_true', decide_eq_false_iff_not] at usable
    exact isAmount_of_checked usable.1 usable.2
  have alike : ∀ w ∈ windows,
      (windowViolation w existing amountMinor nowMs merchantKey).map Violation.code =
        (windowViolation w existing' amountMinor nowMs merchantKey).map Violation.code := by
    intro w member
    have same : (windowViolation w existing amountMinor nowMs merchantKey).isSome =
        (windowViolation w existing' amountMinor nowMs merchantKey).isSome := by
      by_cases keyless : (perMerchant w && merchantKey.isNone) = true
      · rw [windowViolation, windowViolation, if_pos keyless, if_pos keyless]
      · rw [windowViolation_isSome (valid w member) amounts amount (Bool.eq_false_of_not_eq_true keyless),
          windowViolation_isSome (valid w member) amounts' amount (Bool.eq_false_of_not_eq_true keyless),
          spent w member, counted w member]
    cases left : windowViolation w existing amountMinor nowMs merchantKey with
    | none =>
      rw [left, Option.isSome_none, eq_comm, Option.isSome_eq_false_iff,
        Option.isNone_iff_eq_none] at same
      rw [same]
    | some violation =>
      rw [left, Option.isSome_some, eq_comm, Option.isSome_iff_exists] at same
      obtain ⟨violation', right⟩ := same
      rw [right, Option.map_some, Option.map_some, windowViolation_code left,
        windowViolation_code right]
  rw [checked, checked']
  refine congrArg Except.ok ?_
  rw [List.map_findSome?, List.map_findSome?]
  exact findSome?_congr fun w member => alike w member

/-- A window whose cap is compared with an exact sum answers over records in any order alike. -/
theorem windowViolation_perm {existing existing' : List SpendRecord} (perm : existing.Perm existing')
    (amounts : ∀ r ∈ existing, IsAmount r.amountMinor)
    (safe : isUndefined w.capMinor = false →
      Rolling.total (Counted w merchantKey (nowMs - checkedNumber w.windowMs)) SpendRecord.amount
        existing < 2 ^ 53) :
    windowViolation w existing amountMinor nowMs merchantKey =
      windowViolation w existing' amountMinor nowMs merchantKey := by
  have count : (windowTotals w existing nowMs merchantKey).count =
      (windowTotals w existing' nowMs merchantKey).count :=
    foldl_count_perm WindowTotals.count (fun _ _ => apply_ite WindowTotals.count _ _ _) perm
  unfold windowViolation
  dsimp only
  rw [count]
  cases uncapped : isUndefined w.capMinor with
  | true => rfl
  | false =>
    have spent : (windowTotals w existing nowMs merchantKey).totalMinor =
        (windowTotals w existing' nowMs merchantKey).totalMinor :=
      foldl_perm WindowTotals.totalMinor SpendRecord.amountMinor rfl
        (fun _ _ => apply_ite WindowTotals.totalMinor _ _ _) amounts perm (safe uncapped)
    rw [spent]

theorem firstViolatedWindow_perm {existing existing' : List SpendRecord}
    (perm : existing.Perm existing') (amounts : ∀ r ∈ existing, IsAmount r.amountMinor)
    (safe : (∀ w ∈ windows, WellFormed w) → ∀ w ∈ windows, isUndefined w.capMinor = false →
      Rolling.total (Counted w merchantKey (nowMs - checkedNumber w.windowMs)) SpendRecord.amount
        existing < 2 ^ 53) :
    firstViolatedWindow windows existing amountMinor nowMs merchantKey =
      firstViolatedWindow windows existing' amountMinor nowMs merchantKey := by
  unfold firstViolatedWindow
  cases checked : firstMisconfigured windows with
  | error thrown => rfl
  | ok problem =>
    cases problem with
    | some violation => rfl
    | none =>
      have valid := firstMisconfigured_none checked
      have same : windows.findSome? (windowViolation · existing amountMinor nowMs merchantKey) =
          windows.findSome? (windowViolation · existing' amountMinor nowMs merchantKey) :=
        findSome?_congr fun w member => windowViolation_perm perm amounts (safe valid w member)
      rw [same]

/-- What passes every window is an exact amount that each of them admits. -/
theorem firstViolatedWindow_none {existing : List SpendRecord}
    (amounts : ∀ r ∈ existing, IsAmount r.amountMinor)
    (passed : firstViolatedWindow windows existing amountMinor nowMs merchantKey = .ok none) :
    IsAmount amountMinor ∧
      ∀ w ∈ windows, WellFormed w ∧ Admits w existing amountMinor nowMs merchantKey := by
  obtain ⟨problem, checked, remaining⟩ := bind_ok passed
  cases problem with
  | some violation => cases remaining
  | none =>
    have wellFormed := firstMisconfigured_none checked
    simp only at remaining
    split_ifs at remaining with unusable
    · cases remaining
    have amount : IsAmount amountMinor := by
      simp only [Bool.or_eq_true, Bool.not_eq_true', decide_eq_true_eq, not_or] at unusable
      exact isAmount_of_checked (by simpa using unusable.1) unusable.2
    refine ⟨amount, fun w member => ⟨wellFormed w member, ?_⟩⟩
    have silent := List.findSome?_eq_none_iff.mp (Except.ok.inj remaining) w member
    exact windowViolation_none (wellFormed w member) amounts amount silent

end Vaduno.Enforce
