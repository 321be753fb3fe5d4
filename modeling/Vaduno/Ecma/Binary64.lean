import Mathlib.Data.Int.Log
import Mathlib.Data.Rat.Floor
import Mathlib.Algebra.Order.Field.Rat
import Mathlib.Tactic.Linarith
import Mathlib.Tactic.FieldSimp
import Mathlib.Tactic.Ring
import Mathlib.Tactic.NormNum
import Mathlib.Tactic.Positivity
import Mathlib.Algebra.Order.Field.Power

/-! Binary64 arithmetic over the rationals: which values a float holds, and rounding to
nearest with ties to even. Rounding is proved monotone and exact on what is held, which is all
that comparisons of rounded sums and differences rest on. -/
namespace Vaduno.Ecma.Binary64

/-- The rationals a binary64 float holds exactly. -/
def Representable (q : ℚ) : Prop :=
  ∃ m e : ℤ, |m| < 2 ^ 53 ∧ -1074 ≤ e ∧ e ≤ 971 ∧ q = m * (2 : ℚ) ^ e

/-- The nearest integer, a tie going to the even one. -/
def roundEven (x : ℚ) : ℤ :=
  if x - ⌊x⌋ < 1 / 2 then ⌊x⌋
  else if 1 / 2 < x - ⌊x⌋ then ⌊x⌋ + 1
  else if ⌊x⌋ % 2 = 0 then ⌊x⌋ else ⌊x⌋ + 1

/-- The exponent of the last place of the binade `q` lies in. -/
def unitExponent (q : ℚ) : ℤ := if q = 0 then -1074 else max (Int.log 2 |q| - 52) (-1074)

theorem unitExponent_zero : unitExponent 0 = -1074 := rfl

theorem unitExponent_of_ne {q : ℚ} (nonzero : q ≠ 0) :
    unitExponent q = max (Int.log 2 |q| - 52) (-1074) := if_neg nonzero

theorem unitExponent_ge (q : ℚ) : -1074 ≤ unitExponent q := by
  unfold unitExponent
  split_ifs <;> omega

/-- The multiple of `2 ^ e` nearest to `q`. -/
def nearestMultiple (e : ℤ) (q : ℚ) : ℚ := roundEven (q / 2 ^ e) * 2 ^ e

/-- `q` rounded to 53 significant bits, with the exponent still unbounded above. -/
def nearest (q : ℚ) : ℚ := nearestMultiple (unitExponent q) q

theorem roundEven_le (x : ℚ) : roundEven x ≤ ⌊x⌋ + 1 := by
  unfold roundEven
  split_ifs <;> omega

theorem le_roundEven (x : ℚ) : ⌊x⌋ ≤ roundEven x := by
  unfold roundEven
  split_ifs <;> omega

theorem roundEven_intCast (n : ℤ) : roundEven n = n := by
  simp [roundEven]

theorem roundEven_mono {x y : ℚ} (le : x ≤ y) : roundEven x ≤ roundEven y := by
  rcases (Int.floor_mono le).lt_or_eq with lower | same
  · have upper := roundEven_le x
    have beyond := le_roundEven y
    omega
  · unfold roundEven
    rw [same]
    have shifted : x - ⌊y⌋ ≤ y - ⌊y⌋ := by linarith
    split_ifs <;> first | omega | (exfalso; linarith)

theorem nearestMultiple_mono (e : ℤ) {p q : ℚ} (le : p ≤ q) :
    nearestMultiple e p ≤ nearestMultiple e q := by
  have positive : (0 : ℚ) < 2 ^ e := by positivity
  have scaled : p / 2 ^ e ≤ q / 2 ^ e := by gcongr
  have rounded : (roundEven (p / 2 ^ e) : ℚ) ≤ roundEven (q / 2 ^ e) := by
    exact_mod_cast roundEven_mono scaled
  exact mul_le_mul_of_nonneg_right rounded positive.le

/-- A multiple of `2 ^ e` is its own rounding to the grid of `2 ^ e`. -/
theorem nearestMultiple_of_multiple (e : ℤ) (m : ℤ) {d : ℤ} (le : e ≤ d) :
    nearestMultiple e (m * 2 ^ d) = m * 2 ^ d := by
  obtain ⟨k, rfl⟩ : ∃ k : ℕ, d = e + k := ⟨(d - e).toNat, by omega⟩
  have whole : (m : ℚ) * 2 ^ (e + (k : ℤ)) / 2 ^ e = ((m * 2 ^ k : ℤ) : ℚ) := by
    rw [zpow_add₀ (by norm_num), zpow_natCast]
    push_cast
    field_simp
  rw [nearestMultiple, whole, roundEven_intCast, zpow_add₀ (by norm_num), zpow_natCast]
  push_cast
  ring

theorem two_zpow_add (e : ℤ) (k : ℕ) : (2 : ℚ) ^ (e + k) = ((2 ^ k : ℤ) : ℚ) * 2 ^ e := by
  rw [zpow_add₀ (by norm_num), zpow_natCast, mul_comm]
  push_cast
  rfl

theorem lt_two_zpow_log (q : ℚ) : |q| < 2 ^ (Int.log 2 |q| + 1) := by
  exact_mod_cast Int.lt_zpow_succ_log_self (b := 2) (by norm_num) |q|

theorem two_zpow_log_le {q : ℚ} (nonzero : q ≠ 0) : (2 : ℚ) ^ Int.log 2 |q| ≤ |q| := by
  exact_mod_cast Int.zpow_log_le_self (b := 2) (by norm_num) (abs_pos.mpr nonzero)

theorem abs_lt_unit (q : ℚ) : |q| < 2 ^ (unitExponent q + 53) := by
  rcases eq_or_ne q 0 with rfl | nonzero
  · rw [abs_zero]
    positivity
  · refine (lt_two_zpow_log q).trans_le (zpow_le_zpow_right₀ (by norm_num) ?_)
    rw [unitExponent_of_ne nonzero]
    omega

/-- Above the smallest unit, a value fills the last place of its own binade. -/
theorem unit_le_abs {q : ℚ} (normal : -1074 < unitExponent q) :
    (2 : ℚ) ^ (unitExponent q + 52) ≤ |q| := by
  have nonzero : q ≠ 0 := by
    rintro rfl
    simp [unitExponent_zero] at normal
  have exponent : unitExponent q + 52 = Int.log 2 |q| := by
    rw [unitExponent_of_ne nonzero] at normal ⊢
    omega
  rw [exponent]
  exact two_zpow_log_le nonzero

/-- A rounding above the pivot separating two binades stays on its side of it. -/
private theorem nearest_mono_of_lt {p q : ℚ} (le : p ≤ q)
    (smaller : unitExponent p < unitExponent q) : nearest p ≤ nearest q := by
  have below : |p| < 2 ^ (unitExponent q + 52) :=
    (abs_lt_unit p).trans_le (zpow_le_zpow_right₀ (by norm_num) (by omega))
  have above := unit_le_abs ((unitExponent_ge p).trans_lt smaller)
  have positive : 0 < q := by
    by_contra negative
    have : |q| ≤ |p| := by
      rw [abs_of_nonpos (not_lt.mp negative), abs_of_nonpos (le.trans (not_lt.mp negative))]
      linarith
    linarith
  rw [abs_of_pos positive] at above
  have pivot : ∀ e ≤ unitExponent q + 52,
      nearestMultiple e (2 ^ (unitExponent q + 52)) = 2 ^ (unitExponent q + 52) := by
    intro e fits
    simpa using nearestMultiple_of_multiple e 1 fits
  calc nearest p
      ≤ nearestMultiple (unitExponent p) (2 ^ (unitExponent q + 52)) :=
        nearestMultiple_mono _ ((le_abs_self p).trans below.le)
    _ = 2 ^ (unitExponent q + 52) := pivot _ (by omega)
    _ = nearestMultiple (unitExponent q) (2 ^ (unitExponent q + 52)) := (pivot _ (by omega)).symm
    _ ≤ nearest q := nearestMultiple_mono _ above

private theorem nearest_mono_of_gt {p q : ℚ} (le : p ≤ q)
    (smaller : unitExponent q < unitExponent p) : nearest p ≤ nearest q := by
  have below : |q| < 2 ^ (unitExponent p + 52) :=
    (abs_lt_unit q).trans_le (zpow_le_zpow_right₀ (by norm_num) (by omega))
  have above := unit_le_abs ((unitExponent_ge q).trans_lt smaller)
  have negative : p < 0 := by
    by_contra positive
    have : |p| ≤ |q| := by
      rw [abs_of_nonneg (not_lt.mp positive), abs_of_nonneg ((not_lt.mp positive).trans le)]
      exact le
    linarith
  rw [abs_of_neg negative] at above
  have pivot : ∀ e ≤ unitExponent p + 52,
      nearestMultiple e (-2 ^ (unitExponent p + 52)) = -2 ^ (unitExponent p + 52) := by
    intro e fits
    simpa using nearestMultiple_of_multiple e (-1) fits
  calc nearest p
      ≤ nearestMultiple (unitExponent p) (-2 ^ (unitExponent p + 52)) :=
        nearestMultiple_mono _ (by linarith)
    _ = -2 ^ (unitExponent p + 52) := pivot _ (by omega)
    _ = nearestMultiple (unitExponent q) (-2 ^ (unitExponent p + 52)) := (pivot _ (by omega)).symm
    _ ≤ nearest q := nearestMultiple_mono _ (by linarith [neg_abs_le q])

/-- Rounding never reorders two values. -/
theorem nearest_mono {p q : ℚ} (le : p ≤ q) : nearest p ≤ nearest q := by
  rcases lt_trichotomy (unitExponent p) (unitExponent q) with smaller | same | larger
  · exact nearest_mono_of_lt le smaller
  · unfold nearest
    rw [same]
    exact nearestMultiple_mono _ le
  · exact nearest_mono_of_gt le larger

theorem roundEven_neg (x : ℚ) : roundEven (-x) = -roundEven x := by
  by_cases whole : x = ⌊x⌋
  · rw [whole, ← Int.cast_neg, roundEven_intCast, roundEven_intCast]
  · have below : (⌊x⌋ : ℚ) < x := lt_of_le_of_ne (Int.floor_le x) (Ne.symm whole)
    have floor : ⌊-x⌋ = -⌊x⌋ - 1 := by
      rw [Int.floor_eq_iff]
      push_cast
      exact ⟨by linarith [Int.lt_floor_add_one x], by linarith⟩
    unfold roundEven
    rw [floor]
    push_cast
    split_ifs <;> first | omega | (exfalso; linarith)

theorem nearest_neg (q : ℚ) : nearest (-q) = -nearest q := by
  have units : unitExponent (-q) = unitExponent q := by
    unfold unitExponent
    simp
  rw [nearest, nearest, units, nearestMultiple, nearestMultiple, neg_div, roundEven_neg]
  push_cast
  ring

theorem nearest_zero : nearest 0 = 0 := by
  simp [nearest, nearestMultiple, roundEven]

/-- Rounding keeps the sign. -/
theorem nearest_nonneg {q : ℚ} (nonneg : 0 ≤ q) : 0 ≤ nearest q :=
  nearest_zero.symm.le.trans (nearest_mono nonneg)

theorem nearest_nonpos {q : ℚ} (nonpos : q ≤ 0) : nearest q ≤ 0 :=
  (nearest_mono nonpos).trans nearest_zero.le

/-- A representable value is its own rounding. -/
theorem nearest_of_representable {q : ℚ} (held : Representable q) : nearest q = q := by
  obtain ⟨m, e, narrow, low, -, rfl⟩ := held
  refine nearestMultiple_of_multiple _ m ?_
  rcases eq_or_ne m 0 with rfl | nonzero
  · simpa [unitExponent_zero] using low
  have magnitude : |(m : ℚ) * 2 ^ e| < 2 ^ (e + 53) := by
    rw [abs_mul, abs_of_pos (by positivity : (0 : ℚ) < 2 ^ e), zpow_add₀ (by norm_num), mul_comm]
    have : |(m : ℚ)| < 2 ^ (53 : ℤ) := by exact_mod_cast narrow
    gcongr
  have binade : Int.log 2 |(m : ℚ) * 2 ^ e| < e + 53 := by
    refine (zpow_lt_zpow_iff_right₀ (by norm_num : (1 : ℚ) < 2)).mp ?_
    exact (two_zpow_log_le (by positivity)).trans_lt magnitude
  rw [unitExponent_of_ne (by positivity)]
  omega

theorem abs_roundEven_le {x : ℚ} {k : ℤ} (bound : |x| ≤ k) : |roundEven x| ≤ k := by
  obtain ⟨lower, upper⟩ := abs_le.mp bound
  have above := roundEven_mono upper
  have below := roundEven_mono (x := ((-k : ℤ) : ℚ)) (by push_cast; exact lower)
  rw [roundEven_intCast] at above below
  exact abs_le.mpr ⟨below, above⟩

theorem le_abs_roundEven {x : ℚ} {k : ℤ} (bound : k ≤ |x|) : k ≤ |roundEven x| := by
  rcases le_abs.mp bound with upper | lower
  · have := roundEven_mono upper
    rw [roundEven_intCast] at this
    exact this.trans (le_abs_self _)
  · have := roundEven_mono (y := ((-k : ℤ) : ℚ)) (by push_cast; linarith)
    rw [roundEven_intCast] at this
    exact (by omega : k ≤ -roundEven x).trans (neg_le_abs _)

/-- A rounding inside the exponent range is a value a float can hold. -/
theorem nearest_representable {q : ℚ} (bounded : |nearest q| < 2 ^ (1024 : ℤ)) :
    Representable (nearest q) := by
  set e := unitExponent q with unit
  set n := roundEven (q / 2 ^ e) with significand
  have value : nearest q = n * 2 ^ e := rfl
  have place : (0 : ℚ) < 2 ^ e := by positivity
  have wide : |n| ≤ 2 ^ 53 := by
    refine abs_roundEven_le ?_
    rw [abs_div, abs_of_pos place, div_le_iff₀ place, ← two_zpow_add]
    exact (abs_lt_unit q).le
  have magnitude : |(n : ℚ)| * 2 ^ e < 2 ^ (1024 : ℤ) := by
    rwa [value, abs_mul, abs_of_pos place] at bounded
  have exponent : ∀ k : ℕ, (2 : ℤ) ^ k ≤ |n| → k + e < 1024 := by
    intro k filled
    rw [add_comm]
    refine (zpow_lt_zpow_iff_right₀ (by norm_num : (1 : ℚ) < 2)).mp (lt_of_le_of_lt ?_ magnitude)
    rw [two_zpow_add]
    have : ((2 ^ k : ℤ) : ℚ) ≤ |(n : ℚ)| := by exact_mod_cast filled
    gcongr
  have inRange : e ≤ 971 := by
    rcases (unitExponent_ge q).lt_or_eq with normal | smallest
    · have filled : (2 : ℤ) ^ 52 ≤ |n| := by
        refine le_abs_roundEven ?_
        rw [abs_div, abs_of_pos place, le_div_iff₀ place, ← two_zpow_add]
        exact unit_le_abs normal
      have := exponent 52 filled
      omega
    · omega
  rcases wide.lt_or_eq with narrow | carry
  · exact ⟨n, e, narrow, unitExponent_ge q, inRange, value⟩
  · -- the significand rounded up to the next power of two
    have room := exponent 53 carry.ge
    have shifted : ((2 ^ 52 : ℤ) : ℚ) * 2 ^ (e + 1) = ((2 ^ 53 : ℤ) : ℚ) * 2 ^ e := by
      rw [← two_zpow_add, ← two_zpow_add]
      ring_nf
    rcases abs_eq (by norm_num) |>.mp carry with positive | negative
    · refine ⟨2 ^ 52, e + 1, by norm_num, by have := unitExponent_ge q; omega, by omega, ?_⟩
      rw [value, positive, shifted]
    · refine ⟨-2 ^ 52, e + 1, by norm_num, by have := unitExponent_ge q; omega, by omega, ?_⟩
      rw [value, negative, Int.cast_neg, Int.cast_neg, neg_mul, neg_mul, shifted]

/-- A held value lies inside the exponent range. -/
theorem abs_lt_of_representable {q : ℚ} (held : Representable q) : |q| < 2 ^ (1024 : ℤ) := by
  obtain ⟨m, e, narrow, -, high, rfl⟩ := held
  have place : (0 : ℚ) < 2 ^ e := by positivity
  have digits : |(m : ℚ)| < 2 ^ (53 : ℤ) := by exact_mod_cast narrow
  calc |(m : ℚ) * 2 ^ e|
      = |(m : ℚ)| * 2 ^ e := by rw [abs_mul, abs_of_pos place]
    _ < 2 ^ (53 : ℤ) * 2 ^ e := by gcongr
    _ = 2 ^ (53 + e) := by rw [zpow_add₀ (by norm_num)]
    _ ≤ 2 ^ (1024 : ℤ) := zpow_le_zpow_right₀ (by norm_num) (by omega)

/-- Every integer of at most 53 bits is held exactly. -/
theorem representable_intCast {n : ℤ} (narrow : |n| ≤ 2 ^ 53) : Representable (n : ℚ) := by
  rcases narrow.lt_or_eq with small | edge
  · exact ⟨n, 0, small, by norm_num, by norm_num, by simp⟩
  · rcases abs_eq (by norm_num) |>.mp edge with rfl | rfl
    · exact ⟨1, 53, by norm_num, by norm_num, by norm_num, by norm_num⟩
    · exact ⟨-1, 53, by norm_num, by norm_num, by norm_num, by norm_num⟩

end Vaduno.Ecma.Binary64
