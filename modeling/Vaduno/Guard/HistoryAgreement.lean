import Vaduno.Guard.Hydrate
import Vaduno.Sample

/-! The guard's own history after a restart, against the history that reads the ledger itself. One parses each
row when the guard is hydrated and compares milliseconds; the other compares the texts of the two instants at
every question, and its merchant counts do not look at the amount. -/
namespace Vaduno.Guard
open Ecma Ledger Policy Enforce

/-! ### Counting -/

/-- Adds up amounts, in their order. -/
def tally (amounts : List Number) : SpendTotals :=
  amounts.foldl (fun totals amountMinor => ⟨totals.totalMinor + amountMinor, totals.count + 1⟩) ⟨0, 0⟩

/-- Counts, as the loops do. -/
def countOf (n : ℕ) : Number := (· + 1)^[n] 0

theorem countOf_succ (n : ℕ) : countOf (n + 1) = countOf n + 1 := Function.iterate_succ_apply' ..

theorem countOf_eq {n : ℕ} (bound : n < 2 ^ 53) : countOf n = ((n : ℤ) : Number) := by
  induction n with
  | zero => rfl
  | succ n ih =>
    rw [countOf_succ, ih (by omega)]
    exact Number.add_intCast (Number.natCast_narrow (by omega)) (by decide)

theorem countOf_inj {m n : ℕ} (left : m < 2 ^ 53) (right : n < 2 ^ 53) (same : countOf m = countOf n) : m = n := by
  rw [countOf_eq left, countOf_eq right] at same
  exact (Number.natCast_inj left right).mp same

theorem foldl_count (items : List α) : items.foldl (fun count _ => count + 1) (0 : Number) = countOf items.length := by
  induction items using List.reverseRecOn with
  | nil => rfl
  | append_singleton items item ih =>
    rw [List.foldl_append, ih, List.length_append, List.length_singleton, countOf_succ]
    rfl

theorem tally_count (amounts : List Number) : (tally amounts).count = countOf amounts.length := by
  induction amounts using List.reverseRecOn with
  | nil => rfl
  | append_singleton amounts amount ih =>
    rw [List.length_append, List.length_singleton, countOf_succ, ← ih, tally, List.foldl_append]
    rfl

/-- Where nothing is found by the first that is not found by the second, and both find as many, they find alike. -/
theorem same_of_countP {p q : α → Bool} {items : List α} (within : ∀ a ∈ items, p a = true → q a = true)
    (same : items.countP p = items.countP q) : ∀ a ∈ items, q a = true → p a = true := by
  induction items with
  | nil => exact nofun
  | cons item rest ih =>
    obtain ⟨first, others⟩ := List.forall_mem_cons.mp within
    have fewer : rest.countP p ≤ rest.countP q := List.countP_mono_left others
    rw [List.countP_cons, List.countP_cons] at same
    cases kept : q item with
    | false =>
      have unfound : p item = false := Bool.eq_false_iff.mpr fun found => by simp [first found] at kept
      simp only [kept, unfound, Bool.false_eq_true, if_false, Nat.add_zero] at same
      exact List.forall_mem_cons.mpr ⟨fun found => by simp [kept] at found, ih others same⟩
    | true =>
      cases found : p item with
      | false =>
        simp only [kept, found, Bool.false_eq_true, if_false, if_true] at same
        omega
      | true =>
        simp only [kept, found, if_true, Nat.add_right_cancel_iff] at same
        exact List.forall_mem_cons.mpr ⟨fun _ => found, ih others same⟩

/-! ### Rows -/

section Rows
variable (platform : Platform) (since currency merchantKey : JsString)

/-- A row of a payment that went through. -/
def isSuccess (e : LedgerEntry) : Bool :=
  decide (e.type = .executionResult) && isObject e.data &&
    match member "success" e.data with
    | .boolean success => success
    | _ => false

/-- The currency of a row is a spelling of the one that is asked for. -/
def inCurrency (e : LedgerEntry) : Bool :=
  match member "currency" e.data with
  | .string own => decide (platform.toUpperCase own = platform.toUpperCase currency)
  | _ => false

/-- The amount of a row that counts as spend. -/
def amountOf (e : LedgerEntry) : Option Number :=
  match member "amountMinor" e.data with
  | .number amountMinor => if amountMinor.isSafeInteger then some amountMinor else none
  | _ => none

/-- A row without a usable key counts toward every merchant. -/
def fitsMerchant (e : LedgerEntry) : Bool :=
  match member "merchantKey" e.data with
  | .string own => decide (own = merchantKey)
  | _ => true

/-- The row lies before the instant by its text. -/
def isBeforeText (e : LedgerEntry) : Bool := decide (e.timestamp < since)

/-- The row lies before the instant by its time, or has none. -/
def isBeforeTime (e : LedgerEntry) : Bool :=
  (platform.dateParse e.timestamp).isNaN || decide (platform.dateParse e.timestamp < platform.dateParse since)

end Rows

/-! ### The history over the ledger -/

def Reading.counted? : Reading α → Option α
  | counted a => some a
  | _ => none

@[simp] theorem counted_passed : (Reading.passed : Reading α).counted? = none := rfl

@[simp] theorem counted_unparseable (problem : JsString) :
    (Reading.unparseable problem : Reading α).counted? = none := rfl

@[simp] theorem counted_counted (a : α) : (Reading.counted a).counted? = some a := rfl

section Ledger
variable {platform : Platform} {since currency merchantKey : JsString} (e : LedgerEntry)

theorem counted_readResult (success : Reading α) : (LedgerSpendHistory.readResult since e success).counted? =
    if isSuccess e && !isBeforeText since e then success.counted? else none := by
  unfold LedgerSpendHistory.readResult isBeforeText isSuccess
  by_cases result : e.type = .executionResult
  · by_cases before : e.timestamp < since
    · simp [result, before]
    · cases isObject e.data with
      | false => simp [result, before]
      | true =>
        cases member "success" e.data with
        | boolean success => cases success <;> simp [result, before]
        | _ => simp [result, before]
  · simp [result]

theorem counted_readCurrency (counted : Reading α) :
    (LedgerSpendHistory.readCurrency platform currency e counted).counted? =
      if inCurrency platform currency e then counted.counted? else none := by
  unfold LedgerSpendHistory.readCurrency inCurrency
  cases member "currency" e.data with
  | string own => by_cases same : platform.toUpperCase own = platform.toUpperCase currency <;> simp [same]
  | _ => rfl

theorem counted_readSpend : (LedgerSpendHistory.readSpend platform since currency e).counted? =
    if isSuccess e && inCurrency platform currency e && !isBeforeText since e then amountOf e else none := by
  rw [LedgerSpendHistory.readSpend, counted_readResult, amountOf]
  cases member "amountMinor" e.data with
  | number amountMinor =>
    by_cases safe : amountMinor.isSafeInteger = true
    · simp only [safe, if_true, counted_readCurrency, counted_counted]
      cases isSuccess e <;> cases inCurrency platform currency e <;> cases isBeforeText since e <;> rfl
    · simp [safe]
  | _ => simp

theorem counted_readMerchant : (LedgerSpendHistory.readMerchant platform merchantKey since currency e).counted? =
    if isSuccess e && inCurrency platform currency e && !isBeforeText since e && fitsMerchant merchantKey e
    then some () else none := by
  rw [LedgerSpendHistory.readMerchant, counted_readResult, counted_readCurrency, fitsMerchant]
  cases isSuccess e <;> cases inCurrency platform currency e <;> cases isBeforeText since e <;> try rfl
  cases member "merchantKey" e.data with
  | string own => by_cases same : own = merchantKey <;> simp [same]
  | _ => rfl

end Ledger

/-- What the totals over the ledger add up. -/
def ledgerSpend (platform : Platform) (since currency : JsString) (e : LedgerEntry) : Option Number :=
  if isSuccess e && inCurrency platform currency e && !isBeforeText since e then amountOf e else none

/-- What the count over the ledger counts. -/
def ledgerCounts (platform : Platform) (since currency merchantKey : JsString) (e : LedgerEntry) : Bool :=
  isSuccess e && inCurrency platform currency e && !isBeforeText since e && fitsMerchant merchantKey e

theorem ledger_totals (platform : Platform) (since currency : JsString) (entries : List LedgerEntry) :
    LedgerSpendHistory.totalsSince platform entries since currency =
      tally (entries.filterMap (ledgerSpend platform since currency)) := by
  rw [LedgerSpendHistory.totalsSince, tally, List.foldl_filterMap]
  refine List.foldl_ext _ _ _ fun totals e _ => ?_
  rw [ledgerSpend, ← counted_readSpend]
  cases LedgerSpendHistory.readSpend platform since currency e <;> rfl

theorem ledger_count (platform : Platform) (since currency merchantKey : JsString) (entries : List LedgerEntry) :
    LedgerSpendHistory.merchantCountSince platform entries merchantKey since currency =
      countOf (entries.countP (ledgerCounts platform since currency merchantKey)) := by
  rw [LedgerSpendHistory.merchantCountSince, List.countP_eq_length_filter, ← foldl_count, List.foldl_filter]
  refine List.foldl_ext _ _ _ fun count e _ => ?_
  have found := @counted_readMerchant platform since currency merchantKey e
  rw [← ledgerCounts] at found
  cases read : LedgerSpendHistory.readMerchant platform merchantKey since currency e <;>
    cases counts : ledgerCounts platform since currency merchantKey e <;> rw [read, counts] at found <;>
      first | rfl | cases found

/-! ### The history of the guard -/

/-- What the totals of a hydrated guard add up. -/
def memorySpend (platform : Platform) (since currency : JsString) (e : LedgerEntry) : Option Number :=
  if isSuccess e && inCurrency platform currency e && !isBeforeTime platform since e then amountOf e else none

/-- What the count of a hydrated guard counts. -/
def memoryCounts (platform : Platform) (since currency merchantKey : JsString) (e : LedgerEntry) : Bool :=
  isSuccess e && inCurrency platform currency e && !isBeforeTime platform since e && (amountOf e).isSome &&
    fitsMerchant merchantKey e

section Memory
variable {platform : Platform} {since currency merchantKey : JsString} (e : LedgerEntry)

theorem restoredSpend_eq : restoredSpend platform e =
    if isSuccess e && !(platform.dateParse e.timestamp).isNaN then
      (amountOf e).bind fun amountMinor => (textOf (member "currency" e.data)).map fun own =>
        ⟨platform.dateParse e.timestamp, amountMinor, own, textOf (member "merchantKey" e.data)⟩
    else none := by
  unfold restoredSpend restoreRow isSuccess amountOf
  by_cases result : e.type = .executionResult
  · cases isObject e.data with
    | false => simp [result]
    | true =>
      cases member "success" e.data with
      | boolean success =>
        cases success with
        | false => simp [result]
        | true =>
          cases member "amountMinor" e.data with
          | number amountMinor =>
            cases member "currency" e.data with
            | string own =>
              by_cases safe : amountMinor.isSafeInteger = true <;>
                by_cases timed : (platform.dateParse e.timestamp).isNaN = true <;> simp [result, safe, timed, textOf]
            | _ => simp [result, textOf]
          | _ => simp [result]
      | _ => simp [result]
  · simp [result]

variable {e} in
theorem amountOf_safe {amountMinor : Number} (amount : amountOf e = some amountMinor) :
    amountMinor.isSafeInteger = true := by
  unfold amountOf at amount
  split at amount
  · split_ifs at amount with safe
    exact Option.some.inj amount ▸ safe
  · cases amount

/-- What either sum makes of a row, by what was restored of it. -/
theorem restored_elim (f : ExecutedSpend → Option α) : (restoredSpend platform e).bind (fun s =>
      if InMemoryHistory.passesOver platform since currency s then none else f s) =
    if isSuccess e && inCurrency platform currency e && !isBeforeTime platform since e then
      (restoredSpend platform e).bind f
    else none := by
  rw [restoredSpend_eq]
  unfold inCurrency isBeforeTime InMemoryHistory.passesOver
  cases isSuccess e with
  | false => rfl
  | true =>
    cases amountOf e with
    | none => simp
    | some amountMinor =>
      cases member "currency" e.data with
      | string own =>
        by_cases timed : (platform.dateParse e.timestamp).isNaN = true <;>
          by_cases early : platform.dateParse e.timestamp < platform.dateParse since <;>
            by_cases spelled : platform.toUpperCase own = platform.toUpperCase currency <;>
              simp [timed, early, spelled, textOf]
      | _ => simp [textOf]

/-- In its currency and with a time, a row is restored by its amount. -/
theorem restored_of_counting (counting : (isSuccess e && inCurrency platform currency e &&
      !isBeforeTime platform since e) = true) : ∃ own, restoredSpend platform e = (amountOf e).map fun amountMinor =>
    ⟨platform.dateParse e.timestamp, amountMinor, own, textOf (member "merchantKey" e.data)⟩ := by
  simp only [Bool.and_eq_true, Bool.not_eq_true', isBeforeTime, Bool.or_eq_false_iff] at counting
  obtain ⟨⟨success, spelled⟩, timed, -⟩ := counting
  rw [restoredSpend_eq]
  unfold inCurrency at spelled
  split at spelled
  · rename_i own currency_own
    refine ⟨own, ?_⟩
    simp only [success, timed, currency_own, textOf, Option.map_some, Bool.not_false, Bool.and_self, if_true]
    cases amountOf e <;> rfl
  · cases spelled

theorem memorySpend_eq : memorySpend platform since currency e = (restoredSpend platform e).bind fun s =>
    if InMemoryHistory.passesOver platform since currency s then none
    else if s.amountMinor.isSafeInteger then some s.amountMinor else none := by
  rw [restored_elim, memorySpend]
  split_ifs with counting
  · obtain ⟨own, restored⟩ := restored_of_counting e counting
    rw [restored]
    cases amount : amountOf e with
    | none => rfl
    | some amountMinor => simp [amountOf_safe amount]
  · rfl

theorem memoryCounts_eq : memoryCounts platform since currency merchantKey e =
    ((restoredSpend platform e).bind fun s =>
      if InMemoryHistory.passesOver platform since currency s then none
      else if s.merchantKey.isSome && decide (s.merchantKey ≠ some merchantKey) then none else some ()).isSome := by
  rw [restored_elim, memoryCounts]
  by_cases counting : (isSuccess e && inCurrency platform currency e && !isBeforeTime platform since e) = true
  · obtain ⟨own, restored⟩ := restored_of_counting e counting
    rw [counting, restored, fitsMerchant]
    cases amountOf e with
    | none => rfl
    | some amountMinor =>
      cases member "merchantKey" e.data with
      | string key => by_cases same : key = merchantKey <;> simp [textOf, same]
      | _ => simp [textOf]
  · simp [counting]

end Memory

theorem memory_totals (platform : Platform) (since currency : JsString) (entries : List LedgerEntry) :
    InMemoryHistory.totalsSince platform (entries.filterMap (restoredSpend platform)) since currency =
      tally (entries.filterMap (memorySpend platform since currency)) := by
  rw [funext (@memorySpend_eq platform since currency),
    ← List.filterMap_filterMap, tally, List.foldl_filterMap, InMemoryHistory.totalsSince]
  refine List.foldl_ext _ _ _ fun totals s _ => ?_
  cases InMemoryHistory.passesOver platform since currency s <;> cases s.amountMinor.isSafeInteger <;> rfl

theorem memory_count (platform : Platform) (since currency merchantKey : JsString) (entries : List LedgerEntry) :
    InMemoryHistory.merchantCountSince platform (entries.filterMap (restoredSpend platform)) merchantKey since
      currency = countOf (entries.countP (memoryCounts platform since currency merchantKey)) := by
  rw [funext (@memoryCounts_eq platform since currency merchantKey), ← List.length_filterMap_eq_countP,
    ← List.filterMap_filterMap, ← foldl_count, List.foldl_filterMap, InMemoryHistory.merchantCountSince]
  refine List.foldl_ext _ _ _ fun count s _ => ?_
  cases InMemoryHistory.passesOver platform since currency s
  · cases s.merchantKey.isSome && decide (s.merchantKey ≠ some merchantKey) <;> rfl
  · rfl

/-! ### Agreement -/

section Agreement
variable (platform : Platform) (since currency merchantKey : JsString)

/-- A row is read alike by both: one with an amount lies before the instant by its text where it does by its
time, and one without, which only the ledger's merchant count can count, lies before it by its text. -/
def ReadAlike (e : LedgerEntry) : Prop :=
  isSuccess e = true → inCurrency platform currency e = true →
    ((amountOf e).isSome = true → isBeforeText since e = isBeforeTime platform since e) ∧
    (amountOf e = none → fitsMerchant merchantKey e = true → isBeforeText since e = true)

/-- A spend that only the guard's memory counts: by its text it lies before the instant, by its time it does not. -/
def Lagging (e : LedgerEntry) : Prop :=
  isSuccess e = true ∧ inCurrency platform currency e = true ∧ (amountOf e).isSome = true ∧
    isBeforeText since e = true ∧ isBeforeTime platform since e = false

/-- Both histories answer the two questions alike. -/
def Agree (guard : GuardMemory) (entries : List LedgerEntry) : Prop :=
  InMemoryHistory.totalsSince platform guard.executed since currency =
    LedgerSpendHistory.totalsSince platform entries since currency ∧
  InMemoryHistory.merchantCountSince platform guard.executed merchantKey since currency =
    LedgerSpendHistory.merchantCountSince platform entries merchantKey since currency

variable {platform since currency merchantKey} {guard : GuardMemory} {entries : List LedgerEntry}

theorem readAlike_iff {e : LedgerEntry} : ReadAlike platform since currency merchantKey e ↔
    memorySpend platform since currency e = ledgerSpend platform since currency e ∧
      memoryCounts platform since currency merchantKey e = ledgerCounts platform since currency merchantKey e := by
  unfold ReadAlike memorySpend ledgerSpend memoryCounts ledgerCounts
  cases isSuccess e <;> cases inCurrency platform currency e <;> cases amountOf e <;>
    cases fitsMerchant merchantKey e <;> cases isBeforeTime platform since e <;> cases isBeforeText since e <;> simp

theorem agree_of_alike (restored : guard.executed = entries.filterMap (restoredSpend platform))
    (alike : ∀ e ∈ entries, ReadAlike platform since currency merchantKey e) :
    Agree platform since currency merchantKey guard entries := by
  constructor
  · rw [restored, memory_totals, ledger_totals]
    exact congrArg tally (List.filterMap_congr fun e listed => (readAlike_iff.mp (alike e listed)).1)
  · rw [restored, memory_count, ledger_count]
    exact congrArg countOf (List.countP_congr fun e listed => by rw [(readAlike_iff.mp (alike e listed)).2])

/-- What is counted from memory is counted over the ledger as well, unless it lags. -/
theorem ledger_of_memory {e : LedgerEntry} (prompt : ¬Lagging platform since currency e) :
    ((memorySpend platform since currency e).isSome = true → (ledgerSpend platform since currency e).isSome = true) ∧
      (memoryCounts platform since currency merchantKey e = true →
        ledgerCounts platform since currency merchantKey e = true) := by
  unfold Lagging at prompt
  unfold memorySpend ledgerSpend memoryCounts ledgerCounts
  revert prompt
  cases isSuccess e <;> cases inCurrency platform currency e <;> cases amountOf e <;>
    cases fitsMerchant merchantKey e <;> cases isBeforeTime platform since e <;> cases isBeforeText since e <;> simp

theorem spend_eq_of_counted {e : LedgerEntry} (prompt : ¬Lagging platform since currency e)
    (counted : (ledgerSpend platform since currency e).isSome = true →
      (memorySpend platform since currency e).isSome = true) :
    memorySpend platform since currency e = ledgerSpend platform since currency e := by
  revert prompt counted
  unfold Lagging memorySpend ledgerSpend
  cases isSuccess e <;> cases inCurrency platform currency e <;> cases amountOf e <;>
    cases isBeforeTime platform since e <;> cases isBeforeText since e <;> simp

theorem alike_of_agree (restored : guard.executed = entries.filterMap (restoredSpend platform))
    (bounded : entries.length < 2 ^ 53) (prompt : ∀ e ∈ entries, ¬Lagging platform since currency e)
    (agree : Agree platform since currency merchantKey guard entries) :
    ∀ e ∈ entries, ReadAlike platform since currency merchantKey e := by
  obtain ⟨totals, counts⟩ := agree
  have within : ∀ p : LedgerEntry → Bool, entries.countP p < 2 ^ 53 := fun p =>
    lt_of_le_of_lt List.countP_le_length bounded
  rw [restored, memory_totals, ledger_totals] at totals
  rw [restored, memory_count, ledger_count] at counts
  have spends := congrArg SpendTotals.count totals
  rw [tally_count, tally_count, List.length_filterMap_eq_countP, List.length_filterMap_eq_countP] at spends
  have found := fun e listed => @ledger_of_memory platform since currency merchantKey e (prompt e listed)
  have spent := same_of_countP (fun e listed => (found e listed).1)
    (countOf_inj (within _) (within _) spends)
  have counted := same_of_countP (fun e listed => (found e listed).2)
    (countOf_inj (within _) (within _) counts)
  intro e listed
  refine readAlike_iff.mpr ⟨spend_eq_of_counted (prompt e listed) (spent e listed), ?_⟩
  exact Bool.eq_iff_iff.mpr ⟨(found e listed).2, counted e listed⟩

/-- What a guard takes back of a ledger that is verified. -/
theorem hydrate_restores {expectedHead : Option LedgerHead} (fresh : guard.hydrated = false)
    (own : guard.usingInMemoryHistory = true) (verified : (verify platform expectedHead entries).ok = true)
    (epochAtCall : ℕ) : ∃ report hydrated,
      hydrateFromLedger platform expectedHead epochAtCall (.ok entries) (.ok entries) guard = (.ok report, hydrated) ∧
      hydrated.executed = entries.filterMap (restoredSpend platform) := by
  simp only [hydrateFromLedger, fresh, restoreFromLedger, ok_bind, verified, own, Bool.not_true, Bool.false_eq_true,
    if_false, if_true]
  exact ⟨_, _, rfl, rfl⟩

/-- After a guard has been hydrated from a ledger that is verified, its own history and the one over the ledger
agree about an instant, a currency and a merchant where they read every row alike; and they do agree only there,
or where some spend lags, which can make up for another. -/
theorem hydrated_agrees {expectedHead : Option LedgerHead} (fresh : guard.hydrated = false)
    (own : guard.usingInMemoryHistory = true) (verified : (verify platform expectedHead entries).ok = true)
    (epochAtCall : ℕ) (since currency merchantKey : JsString) : ∃ report hydrated,
      hydrateFromLedger platform expectedHead epochAtCall (.ok entries) (.ok entries) guard = (.ok report, hydrated) ∧
      ((∀ e ∈ entries, ReadAlike platform since currency merchantKey e) →
        Agree platform since currency merchantKey hydrated entries) ∧
      (entries.length < 2 ^ 32 → Agree platform since currency merchantKey hydrated entries →
        (∀ e ∈ entries, ReadAlike platform since currency merchantKey e) ∨
          ∃ e ∈ entries, Lagging platform since currency e) := by
  obtain ⟨report, hydrated, done, restored⟩ := hydrate_restores fresh own verified epochAtCall
  refine ⟨report, hydrated, done, agree_of_alike restored, fun bounded agree => ?_⟩
  by_cases lags : ∃ e ∈ entries, Lagging platform since currency e
  · exact .inr lags
  · refine .inl (alike_of_agree restored (by omega) (fun e listed lagging => lags ⟨e, listed, lagging⟩) agree)

end Agreement

/-! ### A row with its amount as a text -/

namespace HistoryAgreement.Sample

def guard : GuardMemory := ⟨true, [], none, 0, false, false⟩

def newYear : JsString := "2026-01-01T00:00:00.000Z"

/-- A first row of a payment that went through, with its own hash. -/
def paid (amountMinor : JsValue) : LedgerEntry :=
  let blank : LedgerEntry := ⟨⟨newYear, .executionResult, ⟨some "i-1", some "agent-1"⟩,
    .object [("success", .boolean true), ("amountMinor", amountMinor), ("currency", .string "USD"),
      ("merchantKey", .string "openai")]⟩, 0, genesisHash, []⟩
  { blank with hash := (entryHash Vaduno.Sample.platform blank).toOption.getD [] }

theorem paid_checked : (verify Vaduno.Sample.platform none [paid (.number 500)]).ok = true ∧
    (amountOf (paid (.number 500))).isSome = true ∧
    isBeforeText newYear (paid (.number 500)) = isBeforeTime Vaduno.Sample.platform newYear (paid (.number 500)) ∧
    (verify Vaduno.Sample.platform none [paid (.string "500")]).ok = true ∧
    [paid (.string "500")].countP (memoryCounts Vaduno.Sample.platform newYear "USD" "openai") = 0 ∧
    [paid (.string "500")].countP (ledgerCounts Vaduno.Sample.platform newYear "USD" "openai") = 1 := by
  decide +kernel

theorem number_agrees : ∃ report hydrated,
    hydrateFromLedger Vaduno.Sample.platform none 0 (.ok [paid (.number 500)]) (.ok [paid (.number 500)]) guard =
      (.ok report, hydrated) ∧
    Agree Vaduno.Sample.platform newYear "USD" "openai" hydrated [paid (.number 500)] := by
  obtain ⟨verified, amount, same, -⟩ := paid_checked
  obtain ⟨report, hydrated, done, agree, -⟩ := @hydrated_agrees Vaduno.Sample.platform guard _ none rfl rfl
    verified 0 newYear "USD" "openai"
  refine ⟨report, hydrated, done, agree fun e listed _ _ => ?_⟩
  obtain rfl : e = paid (.number 500) := by simpa using listed
  refine ⟨fun _ => same, fun missing => ?_⟩
  rw [missing] at amount
  cases amount

/-- The payment counts toward its merchant over the ledger, and no longer once the guard has restarted. -/
theorem text_disagrees : (verify Vaduno.Sample.platform none [paid (.string "500")]).ok = true ∧
    ∃ report hydrated, hydrateFromLedger Vaduno.Sample.platform none 0 (.ok [paid (.string "500")])
      (.ok [paid (.string "500")]) guard = (.ok report, hydrated) ∧
    ¬Agree Vaduno.Sample.platform newYear "USD" "openai" hydrated [paid (.string "500")] := by
  obtain ⟨-, -, -, verified, remembered, recorded⟩ := paid_checked
  obtain ⟨report, hydrated, done, restored⟩ := @hydrate_restores Vaduno.Sample.platform guard _ none rfl rfl verified 0
  refine ⟨verified, report, hydrated, done, fun agree => ?_⟩
  have counts := agree.2
  rw [restored, memory_count, ledger_count, remembered, recorded] at counts
  exact absurd (countOf_inj (by decide) (by decide) counts) (by decide)

end HistoryAgreement.Sample
end Vaduno.Guard
