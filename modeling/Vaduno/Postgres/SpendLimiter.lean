import Vaduno.Enforce.SpendBook
import Vaduno.Ecma.IntegerText

/-! The spend limiter over a table of a database. The database does exactly what the statements say,
and the advisory lock makes of each reservation one step. What is left to the code is how the numbers
of the language go into 64-bit columns and come back, which rows it loads, and what it checks before
it asks. -/
namespace Vaduno.Postgres
open Ecma Enforce

/-- A row of `vaduno_spend`. -/
structure SpendRow where
  reservationId : JsString
  scope : JsString
  currency : JsString
  amountMinor : ℤ
  occurredMs : ℤ
  merchantKey : Option JsString
  state : ReservationState

/-- The record that a row stands for. -/
def SpendRow.record (row : SpendRow) : SpendRecord where
  reservationId := row.reservationId
  scope := row.scope
  currency := row.currency
  amountMinor := row.amountMinor
  ms := row.occurredMs
  merchantKey := row.merchantKey
  state := row.state

/-- The table, under its primary key. -/
structure SpendTable where
  rows : List SpendRow
  primaryKey : (rows.map SpendRow.reservationId).Nodup

/-- The order in which a query without `ORDER BY` gives its rows. -/
structure Scan where
  order : List SpendRow → List SpendRow
  perm : ∀ rows, (order rows).Perm rows

/-- A number bound to a BIGINT parameter. It crosses as its text. -/
def bigint (n : Number) : Throwing ℤ :=
  match readInteger n.toText with
  | none => .error (.error ("invalid input syntax for type bigint: \"" ++ n.toText ++ "\""))
  | some p =>
    if -2 ^ 63 ≤ p ∧ p < 2 ^ 63 then .ok p
    else .error (.error ("value \"" ++ n.toText ++ "\" is out of range for type bigint"))

/-- A BIGINT column comes back as text; it is parsed, and refused where it is no safe integer. -/
def toSafeInt (value : ℤ) (field : JsString) : Throwing Number :=
  if (value : Number).isSafeInteger then .ok value
  else .error (.error ("@vaduno/postgres: " ++ field ++ " is not a safe integer (got " ++
    intText value ++ ")"))

/-- `Math.max(a, b)`. -/
def mathMax (a b : Number) : Number :=
  if a.isNaN || b.isNaN then .nan else if a ≤ b then b else a

/-- The widest window; the windows have passed their check when this is asked. -/
def widest (windows : List SpendWindow) : Number :=
  windows.foldl (fun widest w => mathMax widest (checkedNumber w.windowMs)) 0

def SpendRow.read (row : SpendRow) : Throwing SpendRecord := do
  let amountMinor ← toSafeInt row.amountMinor "amount_minor"
  let ms ← toSafeInt row.occurredMs "occurred_ms"
  return { row.record with amountMinor := amountMinor, ms := ms }

namespace SpendTable
variable (t : SpendTable)

def empty : SpendTable := ⟨[], List.nodup_nil⟩

def find (reservationId : JsString) : Option SpendRow :=
  t.rows.find? (·.reservationId = reservationId)

/-- `WHERE scope = $1 AND currency = $2 AND occurred_ms > $3`. -/
def after (scope currency : JsString) (bound : ℤ) : List SpendRow :=
  t.rows.filter fun row => row.scope = scope && row.currency = currency && bound < row.occurredMs

/-- The rows that could still be inside some window, none where there is no window. -/
def load (scan : Scan) (req : ReserveRequest) : Throwing (List SpendRecord) :=
  if req.windows = [] then .ok []
  else do
    let bound ← bigint (req.nowMs - widest req.windows)
    (scan.order (t.after req.scope req.currency bound)).mapM SpendRow.read

theorem insert_primaryKey {row : SpendRow} (fresh : t.find row.reservationId = none) :
    ((t.rows ++ [row]).map SpendRow.reservationId).Nodup := by
  rw [List.map_append, List.map_singleton, ← List.concat_eq_append]
  refine List.Nodup.concat (fun member => ?_) t.primaryKey
  obtain ⟨other, held, same⟩ := List.mem_map.mp member
  simpa [same] using List.find?_eq_none.mp fresh other held

/-- The two numbers of a reservation, bound as BIGINT parameters. -/
def bindNumbers (req : ReserveRequest) : Throwing (ℤ × ℤ) := do
  let amountMinor ← bigint req.amountMinor
  let occurredMs ← bigint req.nowMs
  return (amountMinor, occurredMs)

def reserve (scan : Scan) (req : ReserveRequest) : Throwing LimiterAnswer × SpendTable :=
  match found : t.find req.reservationId with
  | some row => (.ok (.reserved (.ok req.reservationId true (some row.state))), t)
  | none =>
    -- every window is validated before the database is asked; only this refusal counts here
    match firstViolatedWindow req.windows [] req.amountMinor req.nowMs req.merchantKey with
    | .error thrown => (.error thrown, t)
    | .ok configViolation =>
      match configViolation.filter (·.code = encode "SPEND_WINDOW_INVALID") with
      | some violation => (.ok (.reserved (.refused violation)), t)
      | none =>
        match t.load scan req with
        | .error thrown => (.error thrown, t)
        | .ok existing =>
          match firstViolatedWindow req.windows existing req.amountMinor req.nowMs
              req.merchantKey with
          | .error thrown => (.error thrown, t)
          | .ok (some violation) => (.ok (.reserved (.refused violation)), t)
          | .ok none =>
            match bindNumbers req with
            | .error thrown => (.error thrown, t)
            | .ok (amountMinor, occurredMs) =>
              (.ok (.reserved (.ok req.reservationId false none)), {
                rows := t.rows ++ [{
                  reservationId := req.reservationId
                  scope := req.scope
                  currency := req.currency
                  amountMinor := amountMinor
                  occurredMs := occurredMs
                  merchantKey := req.merchantKey
                  state := .reserved }]
                primaryKey := t.insert_primaryKey found })

/-- `UPDATE … SET state = 'committed' WHERE reservation_id = $1`. -/
def commit (reservationId : JsString) : SpendTable where
  rows := t.rows.map fun row =>
    if row.reservationId = reservationId then { row with state := .committed } else row
  primaryKey := by
    rw [List.map_map]
    refine (List.map_congr_left fun row _ => ?_) ▸ t.primaryKey
    rw [Function.comp_apply]
    split_ifs
    · rfl
    · rfl

def keep (kept : SpendRow → Bool) : SpendTable where
  rows := t.rows.filter kept
  primaryKey := t.primaryKey.sublist (List.filter_sublist.map _)

/-- `DELETE … WHERE reservation_id = $1 AND state = 'reserved'`. -/
def release (reservationId : JsString) : SpendTable :=
  t.keep fun row => !(row.reservationId = reservationId && row.state = .reserved)

/-- `DELETE … WHERE occurred_ms < $1`. -/
def pruneBefore (beforeMs : Number) : Throwing LimiterAnswer × SpendTable :=
  match bigint beforeMs with
  | .error thrown => (.error thrown, t)
  | .ok bound => (.ok (.removed (t.rows.countP (·.occurredMs < bound))),
      t.keep fun row => !decide (row.occurredMs < bound))

/-- The sum and the count of the rows after an instant, the epoch where the instant is none. -/
def totalsSince (scope currency : JsString) (since : Number) : Throwing LimiterAnswer := do
  let bound ← bigint (if since.isFinite then since else 0)
  let rows := t.after scope currency bound
  let totalMinor ← toSafeInt (rows.map SpendRow.amountMinor).sum "sum(amount_minor)"
  let count ← toSafeInt rows.length "count"
  return .totals totalMinor count

def step (dateParse : JsString → Number) (scan : Scan) :
    LimiterOp → Throwing LimiterAnswer × SpendTable
  | .reserve req => t.reserve scan req
  | .commit reservationId => (.ok .settled, t.commit reservationId)
  | .release reservationId => (.ok .settled, t.release reservationId)
  | .pruneBefore beforeMs => t.pruneBefore beforeMs
  | .totalsSince scope sinceIso currency =>
    (t.totalsSince scope currency (dateParse sinceIso), t)

end SpendTable

/-! ### Numbers in and out -/

theorem bigint_safe {n : ℤ} (narrow : |n| < 2 ^ 53) : bigint n = .ok n := by
  have bounds := abs_lt.mp narrow
  rw [bigint, readInteger_toText narrow]
  exact if_pos ⟨by omega, by omega⟩

/-- A parameter that is taken stands for the very number. -/
theorem bigint_ok {x : Number} {p : ℤ} (bound : bigint x = .ok p) :
    (p : Number) = x ∧ x.isFinite = true := by
  unfold bigint at bound
  cases read : readInteger x.toText with
  | none =>
    rw [read] at bound
    cases bound
  | some q =>
    rw [read] at bound
    dsimp only at bound
    split_ifs at bound
    · cases bound
      cases x with
      | fin d => exact ⟨round_readInteger read, rfl⟩
      | nan =>
        have none : readInteger Number.nan.toText = none := by decide
        rw [none] at read
        cases read
      | posInf =>
        have none : readInteger Number.posInf.toText = none := by decide
        rw [none] at read
        cases read
      | negInf =>
        have none : readInteger Number.negInf.toText = none := by decide
        rw [none] at read
        cases read

theorem toSafeInt_safe {n : ℤ} (narrow : |n| < 2 ^ 53) (field : JsString) :
    toSafeInt n field = .ok n :=
  if_pos (Number.isSafeInteger_iff.mpr ⟨n, narrow, rfl⟩)

/-- What the code writes into a row: an amount it has checked and a time of a clock. -/
structure Sound (row : SpendRow) : Prop where
  nonneg : 0 ≤ row.amountMinor
  amount : row.amountMinor < 2 ^ 53
  clock : |row.occurredMs| < 2 ^ 53

theorem Sound.abs_amount {row : SpendRow} (sound : Sound row) : |row.amountMinor| < 2 ^ 53 := by
  rw [abs_of_nonneg sound.nonneg]
  exact sound.amount

theorem Sound.isAmount {row : SpendRow} (sound : Sound row) : IsAmount row.record.amountMinor :=
  ⟨row.amountMinor, sound.nonneg, sound.amount, rfl⟩

theorem Sound.toInt_amount {row : SpendRow} (sound : Sound row) : row.record.amount = row.amountMinor :=
  Number.toInt_intCast sound.abs_amount.le

theorem Sound.read {row : SpendRow} (sound : Sound row) : row.read = .ok row.record := by
  rw [SpendRow.read, toSafeInt_safe sound.abs_amount, toSafeInt_safe sound.clock]
  rfl

theorem mapM_read {rows : List SpendRow} (sound : ∀ row ∈ rows, Sound row) :
    rows.mapM SpendRow.read = .ok (rows.map SpendRow.record) := by
  induction rows with
  | nil => rfl
  | cons row rest ih =>
    rw [List.mapM_cons, (sound row (by simp)).read,
      ih fun other member => sound other (List.mem_cons_of_mem row member)]
    rfl

/-! ### The rows that are loaded -/

section Widest

theorem mathMax_fin (a b : Double) : ∃ c : Double, mathMax (.fin a) (.fin b) = .fin c ∧
    a.val ≤ c.val ∧ b.val ≤ c.val := by
  unfold mathMax
  rw [if_neg nofun]
  split_ifs with ordered
  · exact ⟨b, rfl, Number.fin_le a b |>.mp ordered, le_rfl⟩
  · exact ⟨a, rfl, le_rfl, (lt_of_not_ge (fun le => ordered ((Number.fin_le a b).mpr le))).le⟩

theorem foldl_widest {windows : List SpendWindow} (valid : ∀ w ∈ windows, WellFormed w)
    (first : Double) :
    ∃ c : Double, windows.foldl (fun widest w => mathMax widest (checkedNumber w.windowMs)) (.fin first) =
        .fin c ∧ first.val ≤ c.val ∧
      ∀ w ∈ windows, ∃ d : Double, checkedNumber w.windowMs = .fin d ∧ d.val ≤ c.val := by
  induction windows generalizing first with
  | nil => exact ⟨first, rfl, le_rfl, by simp⟩
  | cons w rest ih =>
    have positive := (valid w (by simp)).length
    obtain ⟨d, length⟩ : ∃ d : Double, checkedNumber w.windowMs = .fin d := by
      cases stated : w.windowMs with
      | number n =>
        rw [stated, isPositiveFinite, Bool.and_eq_true] at positive
        cases n with
        | fin d => exact ⟨d, rfl⟩
        | _ => cases positive.1
      | _ =>
        rw [stated] at positive
        cases positive
    obtain ⟨larger, chosen, above, own⟩ := mathMax_fin first d
    obtain ⟨c, widest, beyond, others⟩ :=
      ih (fun v member => valid v (List.mem_cons_of_mem w member)) larger
    rw [List.foldl_cons, length, chosen]
    refine ⟨c, widest, above.trans beyond, fun v member => ?_⟩
    rcases List.mem_cons.mp member with rfl | later
    · exact ⟨d, length, own.trans beyond⟩
    · exact others v later

/-- The widest of valid windows is a number, and no window is wider. -/
theorem widest_ge {windows : List SpendWindow} (valid : ∀ w ∈ windows, WellFormed w) :
    ∃ c : Double, widest windows = .fin c ∧
      ∀ w ∈ windows, ∃ d : Double, checkedNumber w.windowMs = .fin d ∧ d.val ≤ c.val := by
  obtain ⟨zero, same⟩ : ∃ z : Double, (0 : Number) = .fin z :=
    ⟨_, Number.intCast_def (n := 0) (by norm_num)⟩
  obtain ⟨c, found, -, wider⟩ := foldl_widest valid zero
  exact ⟨c, by rw [widest, same, found], wider⟩

/-- A start that fits a column lies before the start of every window. -/
theorem start_le {windows : List SpendWindow} {w : SpendWindow} {nowMs : Number} {bound : ℤ}
    (valid : ∀ w ∈ windows, WellFormed w) (member : w ∈ windows)
    (fits : bigint (nowMs - widest windows) = .ok bound) :
    (bound : Number) ≤ nowMs - checkedNumber w.windowMs := by
  obtain ⟨same, finite⟩ := bigint_ok fits
  obtain ⟨c, largest, wider⟩ := widest_ge valid
  obtain ⟨d, length, narrower⟩ := wider w member
  rw [same, largest, length]
  rw [largest] at finite
  cases nowMs with
  | fin now =>
    change Number.round (now.val - c.val) ≤ Number.round (now.val - d.val)
    exact Number.round_mono (by linarith)
  | nan => cases finite
  | posInf => cases finite
  | negInf => cases finite

end Widest

/-! ### The table against the list -/

/-- The table holds the records of the list, in their order. -/
structure Stores (t : SpendTable) (b : SpendBook) : Prop where
  records : t.rows.map SpendRow.record = b.records
  sound : ∀ row ∈ t.rows, Sound row

section Stores
variable {t : SpendTable} {b : SpendBook}

theorem stores_empty : Stores SpendTable.empty SpendBook.empty := ⟨rfl, by simp [SpendTable.empty]⟩

theorem Stores.find (stores : Stores t b) (reservationId : JsString) :
    b.find reservationId = (t.find reservationId).map SpendRow.record := by
  rw [SpendBook.find, ← stores.records, List.find?_map]
  rfl

theorem budgetOf_eq_iff (r : SpendRecord) (scope currency : JsString) :
    budgetOf r = scopeKey scope currency ↔ r.scope = scope ∧ r.currency = currency := by
  refine ⟨scopeKey_injective, ?_⟩
  rintro ⟨rfl, rfl⟩
  rfl

theorem Stores.budget (stores : Stores t b) (scope currency : JsString) :
    b.budget (scopeKey scope currency) = (t.rows.filter fun row =>
      row.scope = scope && row.currency = currency).map SpendRow.record := by
  rw [SpendBook.budget, ← stores.records, List.filter_map]
  refine congrArg _ (List.filter_congr fun row _ => ?_)
  rw [Bool.eq_iff_iff, Function.comp_apply, decide_eq_true_eq, budgetOf_eq_iff, Bool.and_eq_true,
    decide_eq_true_eq, decide_eq_true_eq]
  rfl

theorem Stores.isAmount (stores : Stores t b) : ∀ r ∈ b.records, IsAmount r.amountMinor := by
  rw [← stores.records]
  intro r member
  obtain ⟨row, held, rfl⟩ := List.mem_map.mp member
  exact (stores.sound row held).isAmount

/-- A safe integer is compared with a 64-bit one as their numbers are. -/
theorem intCast_le_iff {n : ℤ} (narrow : |n| < 2 ^ 53) (p : ℤ) :
    ((p : Number) ≤ (n : Number) ↔ p ≤ n) ∧ ((n : Number) ≤ (p : Number) ↔ n ≤ p) := by
  have bounds := abs_lt.mp narrow
  refine ⟨⟨fun le => ?_, Number.intCast_mono⟩, fun le => ?_, Number.intCast_mono⟩
  · by_contra! above
    have next : |n + 1| ≤ 2 ^ 53 := abs_le.mpr (by omega)
    have past : (n : Number) < ((n + 1 : ℤ) : Number) := (Number.intCast_lt narrow.le next).mpr (by omega)
    exact Number.not_le_of_lt past (Number.le_trans (Number.intCast_mono above) le)
  · by_contra! below
    have last : |n - 1| ≤ 2 ^ 53 := abs_le.mpr (by omega)
    have past : ((n - 1 : ℤ) : Number) < (n : Number) := (Number.intCast_lt last narrow.le).mpr (by omega)
    exact Number.not_le_of_lt past (Number.le_trans le (Number.intCast_mono (by omega)))

/-- The loaded rows give every window the totals of the whole budget. -/
theorem Stores.load (stores : Stores t b) {scan : Scan} {req : ReserveRequest}
    (valid : ∀ w ∈ req.windows, WellFormed w)
    (fits : req.windows ≠ [] → (bigint (req.nowMs - widest req.windows)).isOk = true) :
    ∃ existing, t.load scan req = .ok existing ∧ (∀ r ∈ existing, IsAmount r.amountMinor) ∧
      ∀ w ∈ req.windows, ∀ weight : SpendRecord → ℤ,
        Rolling.total (Counted w req.merchantKey (req.nowMs - checkedNumber w.windowMs)) weight
            existing =
          Rolling.total (Counted w req.merchantKey (req.nowMs - checkedNumber w.windowMs)) weight
            (b.budget (scopeKey req.scope req.currency)) := by
  unfold SpendTable.load
  by_cases none : req.windows = []
  · rw [if_pos none]
    exact ⟨[], rfl, by simp, by simp [none]⟩
  rw [if_neg none]
  cases bound : bigint (req.nowMs - widest req.windows) with
  | error thrown =>
    have taken := fits none
    rw [bound] at taken
    cases taken
  | ok p =>
    rw [ok_bind]
    have sound : ∀ row ∈ scan.order (t.after req.scope req.currency p), Sound row := fun row member =>
      stores.sound row (List.mem_of_mem_filter ((scan.perm _).mem_iff.mp member))
    refine ⟨_, mapM_read sound, ?_, fun w member weight => ?_⟩
    · intro r member
      obtain ⟨row, held, rfl⟩ := List.mem_map.mp member
      exact (sound row held).isAmount
    · have early := start_le valid member bound
      have loaded : t.after req.scope req.currency p = (t.rows.filter fun row =>
          row.scope = req.scope && row.currency = req.currency).filter fun row =>
            p < row.occurredMs := by
        rw [List.filter_filter]
        exact List.filter_congr fun row _ => Bool.and_comm _ _
      rw [Rolling.total_perm _ _ ((scan.perm _).map _), stores.budget, Rolling.total_image,
        Rolling.total_image, loaded, Rolling.total_filter]
      refine Rolling.total_congr _ _ _ fun row held => and_iff_right_of_imp fun counted => ?_
      by_contra! late
      have old : row.record.ms ≤ req.nowMs - checkedNumber w.windowMs :=
        Number.le_trans (Number.intCast_mono late) early
      rw [Counted, skips, decide_eq_true old] at counted
      cases counted

end Stores

end Vaduno.Postgres
