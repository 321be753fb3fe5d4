import Vaduno.Ecma.JsonParse

/-! The texts of integers. A safe integer is written as its decimal digits, and whatever number is
written as digits alone is the nearest one to the integer they stand for. -/
namespace Vaduno.Ecma
open Binary64

/-- The integer that a run of digits with an optional minus sign stands for. -/
def readInteger : JsString → Option ℤ
  | 45 :: digits => if isDigits digits then some (-digitsValue digits) else none
  | digits => if isDigits digits then some (digitsValue digits) else none

theorem isDigits_of_isWhole {text : JsString} (whole : isWhole text = true) : isDigits text = true := by
  unfold isWhole at whole
  split at whole
  · rfl
  · cases whole
  · exact whole

theorem digits_of_isDigits {text : JsString} (valid : isDigits text = true) : Digits text := by
  rw [isDigits, Bool.and_eq_true, List.all_eq_true] at valid
  intro u member
  simpa [isDigit] using valid.2 u member

/-- A number written as an integer is the nearest one to it. -/
theorem round_readInteger {d : Double} {p : ℤ} (read : readInteger (Number.fin d).toText = some p) :
    (p : Number) = .fin d := by
  have value := readNumber_toText d
  refine round_of_nearest ?_
  unfold readInteger at read
  split at read
  · rename_i digits text
    split_ifs at read with valid
    cases read
    rw [text, readNumber, readDecimal_whole (digits_of_isDigits valid)] at value
    rw [← value]
    push_cast
    exact nearest_neg _
  · rename_i digits unsigned
    split_ifs at read with valid
    cases read
    have plain : readNumber (Number.fin d).toText = nearest (readDecimal (Number.fin d).toText) := by
      rw [readNumber]
      exact unsigned
    rw [plain, readDecimal_whole (digits_of_isDigits valid)] at value
    rw [← value]
    rfl

namespace Decimal

theorem neighbours_natural (n : ℕ) : neighbours n 0 = [⟨n, 0⟩, ⟨n, 0⟩] := by
  simp [neighbours, val]

/-- The search for an integer ends before it takes a place after the point. -/
theorem search_natural {n : ℕ} (narrow : n < 2 ^ 53) {scale fuel : ℕ} (enough : scale < fuel) :
    ∃ d, search n fuel scale = some d ∧ 0 ≤ d.scale := by
  induction scale generalizing fuel with
  | zero =>
    obtain ⟨fuel, rfl⟩ : ∃ k, fuel = k + 1 := ⟨fuel - 1, by omega⟩
    have exactly : nearest (n : ℚ) = n := by
      have held := representable_intCast (n := n) (by rw [Nat.abs_cast]; exact_mod_cast narrow.le)
      exact nearest_of_representable (by exact_mod_cast held)
    refine ⟨⟨n, 0⟩, ?_, le_rfl⟩
    rw [search, Nat.cast_zero, neighbours_natural]
    simp [val, exactly]
  | succ scale ih =>
    obtain ⟨fuel, rfl⟩ : ∃ k, fuel = k + 1 := ⟨fuel - 1, by omega⟩
    rw [search]
    split
    · rename_i d found
      refine ⟨d, rfl, ?_⟩
      have among := List.mem_of_find?_eq_some found
      have scaled : ∀ d ∈ neighbours n ((scale + 1 : ℕ) : ℤ), d.scale = ((scale + 1 : ℕ) : ℤ) := by
        intro d member
        unfold neighbours at member
        dsimp only at member
        split_ifs at member <;> simp at member <;> rcases member with rfl | rfl <;> rfl
      rw [scaled d among]
      omega
    · rw [show (((scale + 1 : ℕ) : ℤ) - 1) = (scale : ℤ) by push_cast; ring]
      exact ih (by omega)

/-- A positive decimal has as many digits as its value. -/
theorem length_le {d : Decimal} {places bound : ℕ} (scale : d.scale = places)
    (positive : 0 < d.significand) (small : d.val < 10 ^ bound) :
    places + (natText d.significand).length ≤ bound := by
  have leading : 10 ^ ((natText d.significand).length - 1) ≤ d.significand := by
    rcases Nat.eq_zero_or_pos ((natText d.significand).length - 1) with zero | more
    · rw [zero]
      exact positive
    · by_contra! shorter
      have counted := (Nat.length_toDigits_le_iff (by norm_num) more).mpr shorter
      rw [natText_units, List.length_map] at counted more
      omega
  have nonempty := List.length_pos_iff.mpr (natText_ne_nil d.significand)
  have value : d.val = ((d.significand * 10 ^ places : ℕ) : ℚ) := by
    rw [val, scale]
    push_cast
    rw [zpow_natCast]
  have bounded : 10 ^ ((natText d.significand).length - 1 + places) < 10 ^ bound := by
    rw [value] at small
    have exact : d.significand * 10 ^ places < 10 ^ bound := by exact_mod_cast small
    rw [pow_add]
    exact lt_of_le_of_lt (Nat.mul_le_mul_right _ leading) exact
  have := (Nat.pow_lt_pow_iff_right (by norm_num)).mp bounded
  omega

/-- The text of a decimal without places after the point, and not too long, is digits alone, and no
zero is in front. -/
theorem text_whole {d : Decimal} (whole : 0 ≤ d.scale) (positive : 0 < d.significand)
    (small : d.val < 10 ^ 21) : isWhole d.text = true := by
  obtain ⟨places, scale⟩ := Int.eq_ofNat_of_zero_le whole
  have length := length_le scale positive small
  obtain ⟨u, tail, leading, other⟩ := natText_leading positive
  have only : Digits (natText d.significand ++ List.replicate (d.scale + (natText d.significand).length -
      (natText d.significand).length).toNat 48) := (digits_natText _).append (digits_zeros _)
  unfold text
  dsimp only
  rw [if_pos ⟨by omega, by omega⟩]
  rw [leading] at only ⊢
  exact isWhole_leading only other

theorem normalize_whole {d : Decimal} (whole : 0 ≤ d.scale) : 0 ≤ d.normalize.scale := by
  unfold normalize
  split_ifs
  · exact Int.add_nonneg whole (by norm_num)
  · exact whole

/-- A positive safe integer is written in digits. -/
theorem shortest_whole {n : ℕ} (positive : 0 < n) (narrow : n < 2 ^ 53) :
    isWhole (shortest n).normalize.text = true := by
  have real : (0 : ℚ) < n := by exact_mod_cast positive
  have held : Representable (n : ℚ) := by
    have := representable_intCast (n := n) (by rw [Nat.abs_cast]; exact_mod_cast narrow.le)
    exact_mod_cast this
  have log : Int.log 10 (n : ℚ) = (Nat.log 10 n : ℕ) := Int.log_natCast 10 n
  have places : Nat.log 10 n < 17 := Nat.log_lt_of_lt_pow positive.ne' (by omega)
  obtain ⟨d, found, whole⟩ := search_natural narrow places
  have chosen : shortest n = d := by
    rw [shortest, log, found]
    rfl
  have reads := shortest_reads held real
  refine text_whole (normalize_whole (by rwa [chosen])) (significand_pos held real) ?_
  by_contra! large
  have beyond : (n : ℚ) < 2 ^ 53 := by exact_mod_cast narrow
  have rounded := nearest_mono ((by norm_num : ((2 ^ 53 : ℤ) : ℚ) ≤ 10 ^ 21).trans large)
  rw [reads, nearest_of_representable (representable_intCast (by norm_num))] at rounded
  push_cast at rounded
  linarith

end Decimal

theorem intCast_inj {p n : ℤ} (narrow : |n| < 2 ^ 53) (same : (p : Number) = (n : ℤ)) : p = n := by
  have bounds := abs_lt.mp narrow
  rcases lt_or_ge p (-2 ^ 53) with below | above
  · have low : (p : Number) ≤ ((-2 ^ 53 : ℤ) : Number) := Number.intCast_mono below.le
    rw [same, Number.intCast_le narrow.le (by norm_num)] at low
    omega
  rcases lt_or_ge (2 ^ 53) p with beyond | within
  · have high : ((2 ^ 53 : ℤ) : Number) ≤ (p : Number) := Number.intCast_mono beyond.le
    rw [same, Number.intCast_le (by norm_num) narrow.le] at high
    omega
  have bounded : |p| ≤ 2 ^ 53 := abs_le.mpr ⟨above, within⟩
  have left := Number.toInt_intCast bounded
  rw [same, Number.toInt_intCast narrow.le] at left
  exact left.symm

theorem toText_pos {d : Double} (positive : 0 < d.val) :
    (Number.fin d).toText = (Decimal.shortest d.val).normalize.text := by
  rw [Number.toText, if_neg positive.ne', if_neg positive.not_gt]

theorem toText_neg {d : Double} (negative : d.val < 0) :
    (Number.fin d).toText = 45 :: (Decimal.shortest (-d.val)).normalize.text := by
  rw [Number.toText, if_neg negative.ne, if_pos negative]
  rfl

theorem readInteger_natural {digits : JsString} (valid : isDigits digits = true) :
    (∃ p, readInteger digits = some p) ∧ ∃ p, readInteger (45 :: digits) = some p := by
  refine ⟨?_, -digitsValue digits, if_pos valid⟩
  unfold readInteger
  split
  · rename_i tail
    have only := digits_of_isDigits valid 45 (by simp)
    exact absurd only (by decide)
  · exact ⟨_, if_pos valid⟩

/-- A safe integer is written as itself. -/
theorem readInteger_toText {n : ℤ} (narrow : |n| < 2 ^ 53) :
    readInteger (n : Number).toText = some n := by
  have finite := Number.intCast_def narrow.le
  suffices some_read : ∃ p, readInteger (n : Number).toText = some p by
    obtain ⟨p, read⟩ := some_read
    rw [finite] at read
    rw [finite, read, intCast_inj narrow ((round_readInteger read).trans finite.symm)]
  have bounds := abs_lt.mp narrow
  rcases lt_trichotomy n 0 with negative | rfl | positive
  · obtain ⟨k, rfl⟩ : ∃ k : ℕ, n = -k := ⟨n.natAbs, by omega⟩
    have below : ((-(k : ℤ) : ℤ) : ℚ) < 0 := by exact_mod_cast negative
    rw [finite, toText_neg below]
    have same : -((-(k : ℤ) : ℤ) : ℚ) = k := by push_cast; ring
    rw [same]
    exact (readInteger_natural (isDigits_of_isWhole (Decimal.shortest_whole (by omega) (by omega)))).2
  · exact ⟨0, by decide +kernel⟩
  · obtain ⟨k, rfl⟩ : ∃ k : ℕ, n = k := ⟨n.natAbs, by omega⟩
    have above : 0 < (((k : ℕ) : ℤ) : ℚ) := by exact_mod_cast positive
    rw [finite, toText_pos above]
    change ∃ p, readInteger (Decimal.shortest ((k : ℤ) : ℚ)).normalize.text = some p
    rw [Int.cast_natCast]
    exact (readInteger_natural (isDigits_of_isWhole (Decimal.shortest_whole (by omega) (by omega)))).1

theorem natText_append {m d : ℕ} (positive : 0 < m) (digit : d < 10) :
    natText (10 * m + d) = natText m ++ natText d := by
  rw [natText_units, natText_units, natText_units, ← Nat.toDigits_append_toDigits (by norm_num) positive digit,
    List.map_append]

theorem natText_singleton {u : UInt16} (low : 48 ≤ u) (high : u < 58) : natText (u.toNat - 48) = [u] := by
  rw [UInt16.le_iff_toNat_le] at low
  rw [UInt16.lt_iff_toNat_lt] at high
  change 48 ≤ u.toNat at low
  change u.toNat < 58 at high
  rw [natText_units, Nat.toDigits_of_lt_base (by omega)]
  refine congrArg (fun v => [v]) (UInt16.toNat_inj.mp ?_)
  interval_cases same : u.toNat <;> rfl

theorem digitsValue_pos {u : UInt16} {tail : JsString} (low : 48 ≤ u) (nonzero : u ≠ 48) :
    0 < digitsValue (u :: tail) := by
  suffices grows : ∀ value, 0 < value → 0 < tail.foldl (fun value u => 10 * value + (u.toNat - 48)) value by
    have leading : 0 < 10 * 0 + (u.toNat - 48) := by
      have other : u.toNat ≠ 48 := fun same => nonzero (UInt16.toNat_inj.mp same)
      rw [UInt16.le_iff_toNat_le] at low
      change 48 ≤ u.toNat at low
      omega
    exact grows _ leading
  intro value positive
  induction tail generalizing value with
  | nil => exact positive
  | cons v rest ih => exact ih (10 * value + (v.toNat - 48)) (by omega)

/-- A run of digits without a zero in front is the text of its value. -/
theorem natText_digitsValue {digits : JsString} (whole : isWhole digits = true) :
    natText (digitsValue digits) = digits := by
  have only := digits_of_isDigits (isDigits_of_isWhole whole)
  cases digits with
  | nil => cases whole
  | cons u tail =>
    by_cases zero : u = 48
    · subst zero
      cases tail with
      | nil => rfl
      | cons => cases whole
    · obtain ⟨low, high⟩ := only u List.mem_cons_self
      induction tail using List.reverseRecOn with
      | nil => exact (congrArg natText (by simp [digitsValue])).trans (natText_singleton low high)
      | append_singleton front v ih =>
        obtain ⟨low', high'⟩ := only v (by simp)
        have front_only : Digits (u :: front) := fun w member => only w (by simp at member ⊢; tauto)
        have value : digitsValue (u :: (front ++ [v])) = 10 * digitsValue (u :: front) + (v.toNat - 48) := by
          rw [← List.cons_append, digitsValue, List.foldl_append]
          rfl
        have small : v.toNat - 48 < 10 := by
          rw [UInt16.lt_iff_toNat_lt] at high'
          change v.toNat < 58 at high'
          omega
        rw [value, natText_append (digitsValue_pos low zero) small, natText_singleton low' high',
          ih (isWhole_leading front_only zero) front_only]
        rfl

/-- A natural number that is safe is written as its digits. -/
theorem toText_natCast {n : ℕ} (narrow : n < 2 ^ 53) : ((n : ℤ) : Number).toText = natText n := by
  have read := readInteger_toText (n := n) (by rw [Nat.abs_cast]; exact_mod_cast narrow)
  rcases Nat.eq_zero_or_pos n with rfl | positive
  · decide +kernel
  · have above : 0 < (((n : ℕ) : ℤ) : ℚ) := by exact_mod_cast positive
    have text : ((n : ℤ) : Number).toText = (Decimal.shortest n).normalize.text := by
      rw [Number.intCast_def (Number.natCast_narrow narrow), toText_pos above]
      change (Decimal.shortest ((n : ℤ) : ℚ)).normalize.text = _
      rw [Int.cast_natCast]
    rw [text] at read ⊢
    have whole := Decimal.shortest_whole positive narrow
    have only := digits_of_isDigits (isDigits_of_isWhole whole)
    unfold readInteger at read
    split at read
    · rename_i digits text
      exact absurd (only 45 (by simp [text])) (by decide)
    · rw [if_pos (isDigits_of_isWhole whole)] at read
      have value : digitsValue (Decimal.shortest n).normalize.text = n := by exact_mod_cast Option.some.inj read
      rw [← natText_digitsValue whole, value]

end Vaduno.Ecma
