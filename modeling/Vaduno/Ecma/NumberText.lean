import Vaduno.Ecma.Text
import Mathlib.Data.Nat.Prime.Basic
import Mathlib.Algebra.Order.Floor.Semiring

/-! Reading the text of a number back. The text of a finite number determines it: the shortest
decimal rounds to the number, and the layout around the decimal point gives the decimal. -/
namespace Vaduno.Ecma
open Binary64

/-- The exponent after the `e` of a number text. -/
def readExponent : JsString → ℤ
  | 43 :: digits => digitsValue digits
  | 45 :: digits => -digitsValue digits
  | _ => 0

/-- What stands before the first `sep`, and what stands after it. -/
def cut (sep : UInt16) : JsString → JsString × JsString
  | [] => ([], [])
  | u :: rest => if u = sep then ([], rest) else (u :: (cut sep rest).1, (cut sep rest).2)

/-- The value of an unsigned decimal with an optional point and exponent. -/
def readDecimal (text : JsString) : ℚ :=
  let (mantissa, exponent) := cut 101 text
  let (whole, fraction) := cut 46 mantissa
  digitsValue (whole ++ fraction) * 10 ^ (readExponent exponent - fraction.length)

theorem cut_append {sep : UInt16} {a : JsString} (b : JsString) (free : sep ∉ a) :
    cut sep (a ++ sep :: b) = (a, b) := by
  induction a with
  | nil => simp [cut]
  | cons u rest ih =>
    have head : u ≠ sep := fun same => free (by simp [same])
    simp [cut, head, ih fun member => free (by simp [member])]

theorem cut_free {sep : UInt16} {a : JsString} (free : sep ∉ a) : cut sep a = (a, []) := by
  induction a with
  | nil => rfl
  | cons u rest ih =>
    have head : u ≠ sep := fun same => free (by simp [same])
    simp [cut, head, ih fun member => free (by simp [member])]

/-- Only decimal digits. -/
def Digits (text : JsString) : Prop := ∀ u ∈ text, 48 ≤ u ∧ u < 58

theorem digits_natText (n : ℕ) : Digits (natText n) := fun _ member => natText_digit member

theorem Digits.no_point {text : JsString} (digits : Digits text) : 46 ∉ text :=
  fun member => absurd (digits 46 member) (by decide)

theorem Digits.no_exponent {text : JsString} (digits : Digits text) : 101 ∉ text :=
  fun member => absurd (digits 101 member) (by decide)

theorem digits_zeros (n : ℕ) : Digits (List.replicate n 48) := by
  intro u member
  rw [List.eq_of_mem_replicate member]
  decide

theorem Digits.append {a b : JsString} (left : Digits a) (right : Digits b) : Digits (a ++ b) :=
  fun u member => (List.mem_append.mp member).elim (left u) (right u)

theorem Digits.take {a : JsString} (digits : Digits a) (n : ℕ) : Digits (a.take n) :=
  fun u member => digits u (List.mem_of_mem_take member)

theorem Digits.drop {a : JsString} (digits : Digits a) (n : ℕ) : Digits (a.drop n) :=
  fun u member => digits u (List.mem_of_mem_drop member)

theorem digitsValue_zeros (digits : JsString) (n : ℕ) :
    digitsValue (digits ++ List.replicate n 48) = digitsValue digits * 10 ^ n := by
  induction n with
  | zero => simp
  | succ n ih =>
    rw [List.replicate_succ', ← List.append_assoc, digitsValue, List.foldl_append, ← digitsValue, ih]
    simp
    ring

theorem digitsValue_leading (digits : JsString) (n : ℕ) :
    digitsValue (List.replicate n 48 ++ digits) = digitsValue digits := by
  have zeros := digitsValue_zeros [] n
  rw [List.nil_append] at zeros
  rw [digitsValue, List.foldl_append, ← digitsValue, zeros]
  simp [digitsValue]

theorem readDecimal_whole {whole : JsString} (digits : Digits whole) :
    readDecimal whole = digitsValue whole := by
  simp [readDecimal, cut_free digits.no_exponent, cut_free digits.no_point, readExponent]

theorem readDecimal_point {whole fraction : JsString} (left : Digits whole)
    (right : Digits fraction) :
    readDecimal (whole ++ 46 :: fraction) =
      digitsValue (whole ++ fraction) * 10 ^ (-(fraction.length : ℤ)) := by
  have unexponented : (101 : UInt16) ∉ whole ++ 46 :: fraction := by
    simp [left.no_exponent, right.no_exponent]
  simp [readDecimal, cut_free unexponented, cut_append _ left.no_point, readExponent]

/-- An exponent part scales what the mantissa reads as. -/
theorem readDecimal_exponent {mantissa : JsString} (exponent : JsString)
    (free : 101 ∉ mantissa) :
    readDecimal (mantissa ++ 101 :: exponent) =
      readDecimal mantissa * 10 ^ readExponent exponent := by
  simp only [readDecimal, cut_append _ free, cut_free free]
  rw [mul_assoc, ← zpow_add₀ (by norm_num)]
  simp [readExponent, add_comm, sub_eq_add_neg]

theorem readExponent_signed (e : ℤ) :
    readExponent (encode (if e < 0 then "-" else "+") ++ natText e.natAbs) = e := by
  split_ifs with negative
  · change -(digitsValue (natText e.natAbs) : ℤ) = e
    rw [digitsValue_natText]
    omega
  · change (digitsValue (natText e.natAbs) : ℤ) = e
    rw [digitsValue_natText]
    omega

theorem readDecimal_mantissa {digits : JsString} (only : Digits digits) (nonempty : digits ≠ []) :
    readDecimal (if digits.length = 1 then digits else digits.take 1 ++ "." ++ digits.drop 1) =
      digitsValue digits * 10 ^ (1 - (digits.length : ℤ)) := by
  split_ifs with single
  · rw [readDecimal_whole only, single]
    simp
  · have layout : digits.take 1 ++ encode "." ++ digits.drop 1 =
        digits.take 1 ++ 46 :: digits.drop 1 := by
      simp [encode, encodeChar]
    rw [layout, readDecimal_point (only.take 1) (only.drop 1), List.take_append_drop]
    have : 0 < digits.length := List.length_pos_iff.mpr nonempty
    congr 2
    simp only [List.length_drop]
    omega

theorem natText_ne_nil (n : ℕ) : natText n ≠ [] := by
  rw [natText_units, ne_eq, List.map_eq_nil_iff]
  exact Nat.toDigits_ne_nil

/-- The layout of a decimal reads back as the decimal. -/
theorem readDecimal_text (d : Decimal) : readDecimal d.text = d.val := by
  have only := digits_natText d.significand
  have value := digitsValue_natText d.significand
  have nonempty := List.length_pos_iff.mpr (natText_ne_nil d.significand)
  unfold Decimal.text Decimal.val
  generalize natText d.significand = digits at only value nonempty
  dsimp only
  by_cases integral : (digits.length : ℤ) ≤ d.scale + digits.length ∧ d.scale + digits.length ≤ 21
  · obtain ⟨places, scale⟩ : ∃ n : ℕ, d.scale = n := ⟨d.scale.toNat, by omega⟩
    rw [if_pos integral, readDecimal_whole (only.append (digits_zeros _)), digitsValue_zeros, value,
      scale]
    simp
  rw [if_neg integral]
  by_cases fixed : 0 < d.scale + digits.length ∧ d.scale + digits.length ≤ 21
  · have layout : ∀ a b : JsString, a ++ encode "." ++ b = a ++ 46 :: b := by
      simp [encode, encodeChar]
    rw [if_pos fixed, layout, readDecimal_point (only.take _) (only.drop _),
      List.take_append_drop, value, List.length_drop]
    congr 2
    omega
  rw [if_neg fixed]
  by_cases small : -6 < d.scale + digits.length ∧ d.scale + digits.length ≤ 0
  · have layout : encode "0." ++ List.replicate (-(d.scale + digits.length)).toNat 48 ++ digits =
        [48] ++ 46 :: (List.replicate (-(d.scale + digits.length)).toNat 48 ++ digits) := by
      simp [encode, encodeChar]
    have zero : Digits [48] := digits_zeros 1
    have leading : ∀ rest, digitsValue ([48] ++ rest) = digitsValue rest := fun rest =>
      digitsValue_leading rest 1
    rw [if_pos small, layout, readDecimal_point zero ((digits_zeros _).append only), leading,
      digitsValue_leading, value, List.length_append, List.length_replicate]
    congr 2
    push_cast
    omega
  rw [if_neg small]
  have layout : ∀ a b c : JsString, a ++ encode "e" ++ b ++ c = a ++ 101 :: (b ++ c) := by
    simp [encode, encodeChar]
  have free : 101 ∉
      (if digits.length = 1 then digits else digits.take 1 ++ "." ++ digits.drop 1) := by
    split_ifs
    · exact only.no_exponent
    · have tail := (only.drop 1).no_exponent
      rw [List.drop_one] at tail
      simp [encode, encodeChar, (only.take 1).no_exponent, tail]
  rw [layout, readDecimal_exponent _ free, readDecimal_mantissa only (List.length_pos_iff.mp nonempty),
    readExponent_signed, value, mul_assoc, ← zpow_add₀ (by norm_num)]
  congr 2
  omega

/-- A number text starts with a digit, never with a sign. -/
theorem text_ne_minus (d : Decimal) (rest : JsString) : d.text ≠ 45 :: rest := by
  obtain ⟨u, tail, head⟩ := List.exists_cons_of_ne_nil (natText_ne_nil d.significand)
  have digit : u ≠ 45 := by
    rintro rfl
    exact absurd (natText_digit (n := d.significand) (u := 45) (by simp [head])) (by decide)
  unfold Decimal.text
  rw [head]
  dsimp only
  by_cases integral : ((u :: tail).length : ℤ) ≤ d.scale + (u :: tail).length ∧
      d.scale + (u :: tail).length ≤ 21
  · rw [if_pos integral]
    simp [digit]
  rw [if_neg integral]
  by_cases fixed : 0 < d.scale + (u :: tail).length ∧ d.scale + (u :: tail).length ≤ 21
  · obtain ⟨n, places⟩ : ∃ n, (d.scale + ((u :: tail).length : ℕ)).toNat = n + 1 :=
      ⟨(d.scale + ((u :: tail).length : ℕ)).toNat - 1, by omega⟩
    rw [if_pos fixed, places]
    simp [digit]
  rw [if_neg fixed]
  by_cases small : -6 < d.scale + (u :: tail).length ∧ d.scale + (u :: tail).length ≤ 0
  · rw [if_pos small]
    simp [encode, encodeChar]
  · rw [if_neg small]
    split_ifs <;> simp [digit]

theorem search_reads (found : Decimal.search q fuel scale = some d) : nearest d.val = q := by
  induction fuel generalizing scale with
  | zero => cases found
  | succ fuel ih =>
    unfold Decimal.search at found
    split at found
    · rename_i candidate first
      cases found
      simpa using List.find?_some first
    · exact ih found

theorem den_of_representable {q : ℚ} (held : Representable q) : ∃ i, q.den = 2 ^ i := by
  obtain ⟨m, e, -, -, -, rfl⟩ := held
  rcases le_or_gt 0 e with nonneg | negative
  · obtain ⟨k, rfl⟩ := Int.eq_ofNat_of_zero_le nonneg
    refine ⟨0, ?_⟩
    have whole : (m : ℚ) * 2 ^ (k : ℤ) = ((m * 2 ^ k : ℤ) : ℚ) := by
      push_cast
      rw [zpow_natCast]
    exact whole ▸ Rat.den_intCast _
  · obtain ⟨k, negated⟩ := Int.eq_ofNat_of_zero_le (by omega : 0 ≤ -e)
    have fraction : (m : ℚ) * 2 ^ e = Rat.divInt m (2 ^ k) := by
      rw [Rat.divInt_eq_div, show e = -(k : ℤ) by omega, zpow_neg, zpow_natCast]
      push_cast
      rw [div_eq_mul_inv]
    have divides : (Rat.divInt m (2 ^ k)).den ∣ 2 ^ k := by
      have := Rat.den_dvd m (2 ^ k)
      exact_mod_cast this
    obtain ⟨i, -, den⟩ := (Nat.dvd_prime_pow Nat.prime_two).mp divides
    exact ⟨i, by rw [fraction, den]⟩

theorem expand_val {q : ℚ} (held : Representable q) (positive : 0 < q) :
    (Decimal.expand q).val = q := by
  obtain ⟨i, den⟩ := den_of_representable held
  have whole : q * 10 ^ i = ((q.num * 5 ^ i : ℤ) : ℚ) := by
    have split : q = q.num / 2 ^ i := by
      conv_lhs => rw [← Rat.num_div_den q, den]
      push_cast
      rfl
    rw [show (10 : ℚ) ^ i = 2 ^ i * 5 ^ i by rw [← mul_pow]; norm_num, ← mul_assoc]
    push_cast
    conv_lhs => rw [split]
    field_simp
  have nonneg : 0 ≤ q.num * 5 ^ i := by
    have := Rat.num_nonneg.mpr positive.le
    positivity
  obtain ⟨n, natural⟩ := Int.eq_ofNat_of_zero_le nonneg
  have exact : q * 10 ^ i = n := by
    rw [whole, natural]
    rfl
  rw [Decimal.expand, Decimal.val, den, Nat.log_pow (by norm_num), exact, Nat.floor_natCast, ← exact,
    zpow_neg, zpow_natCast, mul_inv_cancel_right₀ (by positivity)]

theorem normalize_val (d : Decimal) : d.normalize.val = d.val := by
  unfold Decimal.normalize
  split_ifs with ten
  · rw [Decimal.val, Decimal.val, ten, zpow_add₀ (by norm_num)]
    push_cast
    ring
  · rfl

/-- The shortest decimal rounds back to the number it is the text of. -/
theorem shortest_reads {q : ℚ} (held : Representable q) (positive : 0 < q) :
    nearest (Decimal.shortest q).normalize.val = q := by
  rw [normalize_val, Decimal.shortest]
  cases found : Decimal.search q 17 (Int.log 10 q) with
  | some d => exact search_reads found
  | none => rw [Option.getD_none, expand_val held positive, nearest_of_representable held]

/-- The number a text is read as. -/
def readNumber : JsString → ℚ
  | 45 :: digits => -nearest (readDecimal digits)
  | text => nearest (readDecimal text)

theorem readNumber_text (d : Decimal) : readNumber d.text = nearest d.val := by
  have unsigned := text_ne_minus d
  cases text : d.text with
  | nil => rw [← readDecimal_text, text, readNumber]; simp
  | cons u rest =>
    have : u ≠ 45 := by
      rintro rfl
      exact unsigned rest text
    rw [← readDecimal_text, text, readNumber]
    simp [this]

theorem readNumber_toText (d : Double) : readNumber (Number.fin d).toText = d.val := by
  unfold Number.toText
  dsimp only
  split_ifs with zero negative
  · rw [zero]
    have digit : Digits [48] := digits_zeros 1
    change nearest (readDecimal [48]) = 0
    rw [readDecimal_whole digit]
    exact nearest_zero
  · have held : Representable (-d.val) := by
      obtain ⟨m, e, narrow, low, high, val⟩ := d.held
      exact ⟨-m, e, by rwa [abs_neg], low, high, by rw [val]; push_cast; ring⟩
    change -nearest (readDecimal (Decimal.shortest (-d.val)).normalize.text) = d.val
    rw [readDecimal_text, shortest_reads held (by linarith), neg_neg]
  · have positive : 0 < d.val := lt_of_le_of_ne (not_lt.mp negative) (Ne.symm zero)
    rw [readNumber_text, shortest_reads d.held positive]

/-- The units that the text of a finite number is made of. -/
def NumberUnits (text : JsString) : Prop := ∀ u ∈ text, 43 ≤ u ∧ u ≤ 101 ∧ u ≠ 44

theorem numberUnits_of_all {text : JsString}
    (units : text.all (fun u => 43 ≤ u && u ≤ 101 && u ≠ 44) = true) : NumberUnits text := by
  intro u member
  simpa [and_assoc] using List.all_eq_true.mp units u member

theorem NumberUnits.append {a b : JsString} (left : NumberUnits a) (right : NumberUnits b) :
    NumberUnits (a ++ b) :=
  fun u member => (List.mem_append.mp member).elim (left u) (right u)

theorem NumberUnits.plain {text : JsString} (units : NumberUnits text) : ∀ u ∈ text, u < 0xd800 :=
  fun u member => UInt16.lt_of_le_of_lt (units u member).2.1 (by decide)

theorem Digits.numberUnits {text : JsString} (digits : Digits text) : NumberUnits text :=
  fun u member => by
    obtain ⟨low, high⟩ := digits u member
    exact ⟨UInt16.le_trans (by decide) low, UInt16.le_trans (UInt16.le_of_lt high) (by decide), by
      rintro rfl
      exact absurd low (by decide)⟩

theorem numberUnits_text (d : Decimal) : NumberUnits d.text := by
  have only := digits_natText d.significand
  unfold Decimal.text
  generalize natText d.significand = digits at only
  have point : NumberUnits (encode ".") := numberUnits_of_all (by decide)
  have leading : NumberUnits (encode "0.") := numberUnits_of_all (by decide)
  have exponent : NumberUnits (encode "e") := numberUnits_of_all (by decide)
  have minus : NumberUnits (encode "-") := numberUnits_of_all (by decide)
  have plus : NumberUnits (encode "+") := numberUnits_of_all (by decide)
  have split := fun n => (((only.take n).numberUnits).append point).append (only.drop n).numberUnits
  dsimp only
  split_ifs
  · exact (only.append (digits_zeros _)).numberUnits
  · exact split _
  · exact (leading.append (digits_zeros _).numberUnits).append only.numberUnits
  all_goals
    refine ((NumberUnits.append ?_ exponent).append ?_).append (digits_natText _).numberUnits
    · first | exact only.numberUnits | exact split _
    · first | exact minus | exact plus

theorem numberUnits_toText (d : Double) : NumberUnits (Number.fin d).toText := by
  have zero : NumberUnits (encode "0") := numberUnits_of_all (by decide)
  have minus : NumberUnits (encode "-") := numberUnits_of_all (by decide)
  unfold Number.toText
  dsimp only
  split_ifs
  · exact zero
  · exact minus.append (numberUnits_text _)
  · exact numberUnits_text _

theorem comma_notMem_toText (d : Double) : 44 ∉ (Number.fin d).toText :=
  fun member => (numberUnits_toText d 44 member).2.2 rfl

/-- Two finite numbers with the same text are the same number. -/
theorem toText_injective {a b : Double} (same : (Number.fin a).toText = (Number.fin b).toText) :
    a = b :=
  Double.ext (by rw [← readNumber_toText, same, readNumber_toText])

end Vaduno.Ecma
